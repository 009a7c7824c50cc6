import AddressLookup.Proofs.Cache.History
import AddressLookup.Proofs.Source.Visits
import AddressLookup.Source.Remote

/-! What services answer in the fetches of a run. A fetch shows the document in the cache or sends one request;
if the request is answered with a document, that is put into the cache, and nothing else ever changes there. -/

namespace AddressLookup

/-- The document that a response amounts to: its body, or the empty document if nothing is registered. -/
def Service.Gives (service : Service) (response : Http.Response) (document : Json) : Prop :=
  (service = .rdap ∧ response.status = 404 ∧ document = .object []) ∨
    (200 ≤ response.status ∧ response.status < 300) ∧
      ∃ text, String.fromUTF8? response.body = some text ∧ Json.parse text = some document

theorem Service.readResponse_eq_ok_iff {service : Service} {key : String} {answer : Option Http.Response}
    {document : Json} :
    service.readResponse key answer = .ok document ↔
      ∃ response, answer = some response ∧ service.Gives response document := by
  rcases answer with _ | response
  · simp [readResponse]
  have hunknown : (decide (response.status = 404) && service.acceptsUnknown) = true ↔
      service = .rdap ∧ response.status = 404 := by
    cases service <;> simp [acceptsUnknown]
  have hsuccess : response.isSuccess = true ↔ 200 ≤ response.status ∧ response.status < 300 := by
    simp [Http.Response.isSuccess]
  have hbody : documentOfBody response.body = .ok document ↔
      ∃ text, String.fromUTF8? response.body = some text ∧ Json.parse text = some document := by
    rw [← Option.bind_eq_some_iff, documentOfBody]
    cases (String.fromUTF8? response.body).bind Json.parse <;> simp
  simp only [readResponse, Option.some.injEq, exists_eq_left', Gives]
  split
  · next h =>
    obtain ⟨hrdap, hstatus⟩ := hunknown.1 h
    have hnot : ¬ (200 ≤ response.status ∧ response.status < 300) := by omega
    simp only [hrdap, hstatus, Except.ok.injEq, true_and, eq_comm]
    exact ⟨.inl, fun h => h.resolve_right fun h => hnot (by rw [hstatus]; exact h.1)⟩
  · next h =>
    have hknown : ¬ (service = .rdap ∧ response.status = 404 ∧ document = .object []) :=
      fun hrdap => h (hunknown.2 ⟨hrdap.1, hrdap.2.1⟩)
    rw [or_iff_right hknown, ← hsuccess, ← hbody]
    split
    · next hok => simp [hok]
    · next hfailed => simp [hfailed]

namespace Visit

section

variable (v : Visit RemoteSource World)

def requests : List Http.Request :=
  v.fetched.world.sent.drop v.world.sent.length

def Answered (document : Json) : Prop :=
  ∃ request response, v.requests = [request] ∧ (v.world.exchange request).response = some response ∧
    v.source.service.Gives response document

def shown? : Option Json :=
  v.source.cache.get? v.key v.world.now

def asked : World :=
  v.world.tick.send (v.source.request v.key)

def keep (document : Json) : Cache :=
  v.source.cache.set v.key document v.asked.now

def answer? : Option Json :=
  match v.shown? with
  | some _ => none
  | none => (v.source.service.readResponse v.key
      (v.world.exchange (v.source.request v.key)).response).toOption

def event? : Option Cache.Event :=
  v.answer?.map fun document => .set v.key document v.asked.now

end

section

variable {v : Visit RemoteSource World} {document : Json}

theorem fetched_of_shown (h : v.shown? = some document) :
    v.fetched = ⟨.ok (Record.ofDocument document), v.source, v.world.tick⟩ := by
  show RemoteSource.fetch _ _ _ = _
  rw [RemoteSource.fetch, RemoteSource.document, show v.source.cache.get? _ _ = _ from h]
  rfl

theorem requests_of_shown (h : v.shown? = some document) : v.requests = [] := by
  rw [requests, fetched_of_shown h]
  exact List.drop_length

theorem fetched_of_not_shown (h : v.shown? = none) :
    v.fetched =
      match v.source.service.readResponse v.key (v.world.exchange (v.source.request v.key)).response with
      | .error e => ⟨.error e, v.source, v.asked⟩
      | .ok document =>
        ⟨.ok (Record.ofDocument document), { v.source with cache := v.keep document }, v.asked.tick⟩ := by
  show RemoteSource.fetch _ _ _ = _
  -- Reading the clock changes nothing about the exchange.
  have hexchange : v.world.tick.exchange (v.source.request v.key) =
      v.world.exchange (v.source.request v.key) := rfl
  rw [RemoteSource.fetch, RemoteSource.document, show v.source.cache.get? _ _ = _ from h]
  simp only [RemoteSource.ask, hexchange]
  cases v.source.service.readResponse v.key (v.world.exchange (v.source.request v.key)).response <;> rfl

theorem sent_of_not_shown (h : v.shown? = none) : v.fetched.world.sent = v.asked.sent := by
  rw [fetched_of_not_shown h]
  cases v.source.service.readResponse v.key (v.world.exchange (v.source.request v.key)).response <;> rfl

theorem requests_of_not_shown (h : v.shown? = none) : v.requests = [v.source.request v.key] := by
  rw [requests, sent_of_not_shown h]
  exact List.drop_left

theorem Answered.shown? (h : v.Answered document) : v.shown? = none := by
  obtain ⟨request, -, hrequests, -⟩ := h
  rcases hshown : v.shown? with _ | kept
  · rfl
  · rw [requests_of_shown hshown] at hrequests
    cases hrequests

theorem answered_iff (h : v.shown? = none) :
    v.Answered document ↔ v.source.service.readResponse v.key
      (v.world.exchange (v.source.request v.key)).response = .ok document := by
  rw [Service.readResponse_eq_ok_iff, Answered, requests_of_not_shown h]
  constructor
  · rintro ⟨request, response, hrequest, hresponse, hgives⟩
    obtain rfl := (List.cons.inj hrequest).1
    exact ⟨response, hresponse, hgives⟩
  · rintro ⟨response, hresponse, hgives⟩
    exact ⟨_, response, rfl, hresponse, hgives⟩

theorem Answered.eq {other : Json} (h : v.Answered document) (h' : v.Answered other) : document = other :=
  Except.ok.inj (((answered_iff h.shown?).1 h).symm.trans ((answered_iff h.shown?).1 h'))

theorem Answered.fetched (h : v.Answered document) :
    v.fetched =
      ⟨.ok (Record.ofDocument document), { v.source with cache := v.keep document }, v.asked.tick⟩ := by
  rw [fetched_of_not_shown h.shown?, (answered_iff h.shown?).1 h]

theorem source_fetched (h : ∀ document, ¬ v.Answered document) : v.fetched.source = v.source := by
  rcases hshown : v.shown? with _ | kept
  · rw [fetched_of_not_shown hshown]
    split
    · rfl
    · next document hread => exact absurd ((answered_iff hshown).2 hread) (h document)
  · rw [fetched_of_shown hshown]

theorem sent_fetched (v : Visit RemoteSource World) : v.fetched.world.sent = v.world.sent ++ v.requests := by
  rcases hshown : v.shown? with _ | kept
  · rw [requests_of_not_shown hshown, sent_of_not_shown hshown]
    rfl
  · rw [requests_of_shown hshown, fetched_of_shown hshown, List.append_nil]
    rfl

theorem requests_of_failed {e : Error} (h : v.fetched.outcome = .error e) :
    v.requests = [v.source.request v.key] := by
  refine requests_of_not_shown (Option.eq_none_iff_forall_ne_some.2 fun document hshown => ?_)
  rw [fetched_of_shown hshown] at h
  cases h

theorem readResponse_of_failed {e : Error} (h : v.fetched.outcome = .error e) :
    v.source.service.readResponse v.key (v.world.exchange (v.source.request v.key)).response = .error e := by
  rcases hshown : v.shown? with _ | kept
  · rw [fetched_of_not_shown hshown] at h
    cases hread : v.source.service.readResponse v.key (v.world.exchange (v.source.request v.key)).response with
    | error e' =>
      rw [hread] at h
      cases h
      rfl
    | ok document =>
      rw [hread] at h
      cases h
  · rw [fetched_of_shown hshown] at h
    cases h

theorem not_answered_of_failed {e : Error} (h : v.fetched.outcome = .error e) (document : Json) :
    ¬ v.Answered document := by
  intro hanswered
  rw [hanswered.fetched] at h
  cases h

theorem answer?_eq_some_iff : v.answer? = some document ↔ v.Answered document := by
  rcases hshown : v.shown? with _ | kept
  · rw [answered_iff hshown, answer?, hshown]
    show Except.toOption _ = _ ↔ _
    cases v.source.service.readResponse v.key (v.world.exchange (v.source.request v.key)).response <;>
      simp [Except.toOption]
  · have hnone : v.answer? = none := by rw [answer?, hshown]
    rw [hnone]
    refine iff_of_false (fun h => by cases h) fun hanswered => ?_
    rw [hanswered.shown?] at hshown
    cases hshown

theorem source_fetched_eq (v : Visit RemoteSource World) :
    v.fetched.source = { v.source with cache := v.source.cache.replay v.event?.toList } := by
  rcases hanswer : v.answer? with _ | document
  · rw [event?, hanswer]
    refine source_fetched fun document hanswered => ?_
    rw [answer?_eq_some_iff.2 hanswered] at hanswer
    cases hanswer
  · rw [event?, hanswer]
    rw [(answer?_eq_some_iff.1 hanswer).fetched]
    rfl

end

end Visit

namespace RemoteSource

def Learned (visits : List (Visit RemoteSource World)) (service : Service) (key : String) (document : Json) :
    Prop :=
  ∃ v ∈ visits, v.source.service = service ∧ v.key = key ∧ v.Answered document

section

variable {visits : List (Visit RemoteSource World)} {v : Visit RemoteSource World} {service : Service}
  {key : String} {document : Json}

theorem service_ne_of_nodup {before after : List RemoteSource} {s other : RemoteSource}
    (h : ((before ++ s :: after).map RemoteSource.service).Nodup) (hother : other ∈ before ++ after) :
    s.service ≠ other.service := by
  intro heq
  rw [(List.perm_middle.map _).nodup_iff, List.map_cons, List.nodup_cons] at h
  exact h.1 (List.mem_map.2 ⟨other, hother, heq.symm⟩)

theorem learned_concat : Learned (visits ++ [v]) service key document ↔
    Learned visits service key document ∨
      v.source.service = service ∧ v.key = key ∧ v.Answered document := by
  simp only [Learned, List.mem_append, List.mem_singleton, or_and_right, exists_or, exists_eq_left]

theorem Learned.mono {more : List (Visit RemoteSource World)} (hsub : ∀ v ∈ visits, v ∈ more)
    (h : Learned visits service key document) : Learned more service key document := by
  obtain ⟨v, hv, hrest⟩ := h
  exact ⟨v, hsub v hv, hrest⟩

end

end RemoteSource

end AddressLookup
