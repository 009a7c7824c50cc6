import AddressLookup.Proofs.Json.Indented
import AddressLookup.Report

/-! What the JSON report on a dataset keeps. It is one document, whatever the keys, names and values are, and
the dataset can be had back from it. -/

namespace AddressLookup

namespace Json

variable {α : Type}

def asText? : Json → Option String
  | string s => some s
  | _ => none

theorem asText?_string (text : String) : asText? (string text) = some text :=
  rfl

def asMap? (read : Json → Option α) : Json → Option (KeyMap α)
  | object members => (members.mapM fun m => (read m.2).map (m.1, ·)).map KeyMap.ofList
  | _ => none

theorem asMap?_object {read : Json → Option α} {write : α → Json} (h : ∀ a, read (write a) = some a)
    (m : KeyMap α) : asMap? read (object (m.entries.map fun e => (e.1, write e.2))) = some m := by
  have hmembers : (m.entries.map fun e => (e.1, write e.2)).mapM (fun e => (read e.2).map (e.1, ·)) =
      some m.entries := by
    rw [List.mapM_map]
    simp only [Function.comp_def, h, Option.map_some]
    exact List.mapM_pure.trans (congrArg some (List.map_id m.entries))
  rw [asMap?, hmembers, Option.map_some, ofList_of_sorted m.sorted]

theorem regular_object {kind : JsonNumber → Prop} {write : α → Json} (h : ∀ a, Regular kind (write a))
    (m : KeyMap α) : Regular kind (object (m.entries.map fun e => (e.1, write e.2))) := by
  refine .object (m.sorted.map _ fun _ _ hlt => hlt) fun member hmember => ?_
  obtain ⟨e, -, rfl⟩ := List.mem_map.1 hmember
  exact h e.2

theorem nesting_object_le {write : α → Json} {depth : Nat} (h : ∀ a, (write a).nesting ≤ depth)
    (m : KeyMap α) : (object (m.entries.map fun e => (e.1, write e.2))).nesting ≤ depth + 1 := by
  refine nesting_object_le_iff.2 fun member hmember => ?_
  obtain ⟨e, -, rfl⟩ := List.mem_map.1 hmember
  exact h e.2

end Json

def Record.ofJson? : Json → Option Record :=
  Json.asMap? Json.asText?

def Dataset.ofJson? : Json → Option Dataset :=
  Json.asMap? Record.ofJson?

theorem Record.ofJson?_toJson (r : Record) : Record.ofJson? r.toJson = some r :=
  Json.asMap?_object Json.asText?_string r

theorem Dataset.ofJson?_toJson (d : Dataset) : Dataset.ofJson? d.toJson = some d :=
  Json.asMap?_object Record.ofJson?_toJson d

theorem Dataset.regular_toJson (kind : JsonNumber → Prop) (d : Dataset) : Json.Regular kind d.toJson :=
  Json.regular_object (fun r => Json.regular_object Json.Regular.string r) d

theorem Dataset.nesting_toJson_le (d : Dataset) : d.toJson.nesting ≤ 2 :=
  Json.nesting_object_le (fun r => Json.nesting_object_le (fun _ => Nat.le_refl 0) r) d

namespace Report

open Json

theorem readValue_dataset (d : Dataset) {rest : List Char} (hrest : JsonNumber.Ends rest) :
    readValue depthLimit (d.toJson.prettyChars 0 ++ rest) = some (d.toJson, rest) := by
  have hread := readValue_prettyChars (d.regular_toJson _) depthLimit 0 rest hrest
  have hdepth : d.toJson.nesting ≤ depthLimit := Nat.le_trans d.nesting_toJson_le (by decide)
  rwa [reading, if_pos hdepth, (d.regular_toJson _).reread_eq] at hread

theorem ofDataset_json_lossless (color : Bool) (d : Dataset) :
    let text := ofDataset .json color d
    (∃ document, text = document ++ "\n" ∧ Json.parse document = some d.toJson) ∧
      readValue depthLimit text.toList = some (d.toJson, ['\n']) ∧
      (Json.parse text).bind Dataset.ofJson? = some d := by
  intro text
  have htext : text.toList = d.toJson.prettyChars 0 ++ ['\n'] := String.toList_ofList
  have hread : readValue depthLimit text.toList = some (d.toJson, ['\n']) := by
    rw [htext]
    exact readValue_dataset d (JsonNumber.ends_cons_of_not_continues rfl [])
  refine ⟨⟨d.toJson.pretty, ?_, ?_⟩, hread, ?_⟩
  · rw [← String.toList_inj, htext, String.toList_append, Json.pretty, String.toList_ofList]
    rfl
  · have hwhole := readValue_dataset d (Text.stopsRun_nil _)
    rw [List.append_nil] at hwhole
    rw [Json.parse, parseChars, Json.pretty, String.toList_ofList, hwhole]
    rfl
  · rw [Json.parse, parseChars, hread]
    exact Dataset.ofJson?_toJson d

example : ofDataset .json true (KeyMap.ofList [("\"", ∅)]) =
    "\x7b\n  \"\\\"\": \x7b\x7d\n\x7d\n" := by
  decide +kernel

end Report

end AddressLookup
