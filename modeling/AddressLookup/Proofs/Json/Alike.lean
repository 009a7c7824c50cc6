import AddressLookup.Proofs.Json.Value
import Mathlib.Data.List.Forall2

/-! Values that are the same but for the order in which objects list their members. Among values that list them
in order at every level, no two are alike. -/

namespace AddressLookup.Json

/-- Equal scalars, arrays of alike items, and objects that answer every name alike. -/
inductive Alike : Json → Json → Prop
  | null : Alike null null
  | bool (b : Bool) : Alike (bool b) (bool b)
  | number (n : JsonNumber) : Alike (number n) (number n)
  | string (s : String) : Alike (string s) (string s)
  | array {items items' : List Json} (h : List.Forall₂ Alike items items') : Alike (array items) (array items')
  | object {members members' : List (String × Json)}
      (h : ∀ name, Option.Rel Alike (members.lookup name) (members'.lookup name)) :
      Alike (object members) (object members')

def Ordered : Json → Prop :=
  Regular fun _ => True

theorem Regular.ordered {kind : JsonNumber → Prop} {v : Json} (h : Regular kind v) : Ordered v :=
  h.mono fun _ _ => trivial

theorem Regular.alike_self {kind : JsonNumber → Prop} {v : Json} (h : Regular kind v) : Alike v v := by
  induction h with
  | null => exact .null
  | bool b => exact .bool b
  | @number n _ => exact .number n
  | string s => exact .string s
  | array h ih => exact .array (List.forall₂_same.2 ih)
  | @object members _ h ih =>
    refine .object fun name => ?_
    cases hname : members.lookup name with
    | none => exact .none
    | some v => exact .some (ih _ (KeyMap.mem_of_lookup hname))

theorem eq_of_forall₂ {α : Type} {r : α → α → Prop} {xs ys : List α} (h : List.Forall₂ r xs ys)
    (heq : ∀ x ∈ xs, ∀ y ∈ ys, r x y → x = y) : xs = ys := by
  induction h with
  | nil => rfl
  | @cons x y xs ys hhead _ ih =>
    rw [heq x List.mem_cons_self y List.mem_cons_self hhead,
      ih fun x hx y hy => heq x (List.mem_cons_of_mem _ hx) y (List.mem_cons_of_mem _ hy)]

theorem Alike.eq {v w : Json} (halike : Alike v w) (hv : Ordered v) (hw : Ordered w) : v = w := by
  induction hv generalizing w with
  | null | bool b | number h | string s => cases halike; rfl
  | array h ih =>
    cases halike with
    | array hitems =>
      cases hw with
      | array hw => rw [eq_of_forall₂ hitems fun v hv w hmem halike => ih v hv halike (hw w hmem)]
  | @object members hsorted h ih =>
    cases halike with
    | @object _ members' hmembers =>
      cases hw with
      | object hsorted' hw =>
        refine congrArg _ (KeyMap.entries_ext hsorted hsorted' fun name => ?_)
        have hname := hmembers name
        generalize hfound : members.lookup name = found at hname
        generalize hfound' : members'.lookup name = found' at hname
        cases hname with
        | none => rfl
        | some halike =>
          exact congrArg some (ih _ (KeyMap.mem_of_lookup hfound) halike (hw _ (KeyMap.mem_of_lookup hfound')))

end AddressLookup.Json
