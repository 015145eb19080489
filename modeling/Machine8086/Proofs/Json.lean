import Machine8086.Json
import Mathlib.Data.List.Basic

/-!
# Objects in order

The members of a JSON object are in the order of their names, one for each name (`Json.Sorted`).
Setting a member keeps this order (`Json.Sorted.setMember`), so that an object made of members has
it too (`Json.sorted_ofMembers`), and of each name the member that was set last is found
(`Json.ofMembers_eq_object`).
-/

namespace Machine8086

namespace Json

/-- Every object in the value has its members in the order of their names, one for each name. -/
inductive Sorted : Json → Prop
  | null : Sorted null
  | bool (value : Bool) : Sorted (bool value)
  | integer (value : Int) : Sorted (integer value)
  | float (value : Float) : Sorted (float value)
  | text (value : String) : Sorted (text value)
  | array {elements : List Json} (h : ∀ element ∈ elements, Sorted element) :
      Sorted (array elements)
  | object {members : List (String × Json)} (hnames : (members.map Prod.fst).Pairwise (· < ·))
      (h : ∀ member ∈ members, Sorted member.2) : Sorted (.object members)

namespace Sorted

variable {members : List (String × Json)}

theorem nodup_names (h : Sorted (.object members)) : (members.map Prod.fst).Nodup := by
  cases h with
  | object hnames =>
    apply hnames.imp
    rintro name _ hlt rfl
    exact String.lt_irrefl name hlt

theorem of_lookup {name : String} {value : Json} (h : Sorted (.object members))
    (hvalue : members.lookup name = some value) : Sorted value := by
  cases h with
  | object hnames hmembers =>
    obtain ⟨before, after, rfl, -⟩ := List.lookup_eq_some_iff.1 hvalue
    exact hmembers (name, value) (by simp)

theorem of_member? {name : String} {json value : Json} (h : Sorted json)
    (hvalue : json.member? name = some value) : Sorted value := by
  cases json with
  | object members => exact h.of_lookup hvalue
  | _ => cases hvalue

end Sorted

/-- Setting a member counts before what was there. -/
theorem lookup_setMember (name other : String) (value : Json) (members : List (String × Json)) :
    (setMember name value members).lookup other = ((name, value) :: members).lookup other := by
  induction members with
  | nil => rfl
  | cons first rest ih =>
    obtain ⟨key, old⟩ := first
    rw [setMember]
    split
    · rfl
    · split
      case isTrue heq =>
        subst heq
        rw [List.lookup_cons, List.lookup_cons, List.lookup_cons]
        cases other == name with
        | true => rfl
        | false => rfl
      case isFalse hne =>
        rw [List.lookup_cons, ih, List.lookup_cons, List.lookup_cons, List.lookup_cons]
        by_cases hkey : other = key
        · subst hkey
          rw [beq_self_eq_true, beq_eq_false_iff_ne.2 (Ne.symm hne)]
        · rw [beq_eq_false_iff_ne.2 hkey]

/-- The members of an object that is made of members: of each name the last one. -/
theorem ofMembers_eq_object (members : List (String × Json)) :
    ∃ sorted, ofMembers members = .object sorted ∧
      ∀ name, sorted.lookup name = members.reverse.lookup name := by
  have hfold : ∀ (sorted : List (String × Json)) (name : String),
      (members.foldl (fun sorted m => setMember m.1 m.2 sorted) sorted).lookup name =
        (members.reverse ++ sorted).lookup name := by
    intro sorted name
    induction members generalizing sorted with
    | nil => rfl
    | cons first rest ih =>
      rw [List.foldl_cons, ih, List.lookup_append, lookup_setMember, ← List.lookup_append,
        List.reverse_cons, List.append_assoc]
      rfl
  exact ⟨_, rfl, fun name => by rw [hfold, List.append_nil]⟩

theorem mem_setMember {name : String} {value : Json} {member : String × Json}
    {members : List (String × Json)} (h : member ∈ setMember name value members) :
    member = (name, value) ∨ member ∈ members := by
  induction members with
  | nil => exact .inl (List.mem_singleton.1 h)
  | cons first rest ih =>
    rw [setMember] at h
    split at h
    · exact List.mem_cons.1 h
    · split at h
      · rcases List.mem_cons.1 h with h | h
        · exact .inl h
        · exact .inr (List.mem_cons_of_mem _ h)
      · rcases List.mem_cons.1 h with rfl | h
        · exact .inr List.mem_cons_self
        · exact (ih h).imp_right (List.mem_cons_of_mem _)

theorem Sorted.setMember {members : List (String × Json)} (h : Sorted (.object members))
    (name : String) {value : Json} (hvalue : Sorted value) :
    Sorted (.object (setMember name value members)) := by
  cases h with | object hnames hmembers
  refine .object ?_ ?_
  · induction members with
    | nil => exact List.pairwise_singleton _ _
    | cons first rest ih =>
      obtain ⟨other, old⟩ := first
      obtain ⟨hother, hrest⟩ := List.pairwise_cons.1 hnames
      rw [Json.setMember]
      split
      case isTrue hlt =>
        refine List.pairwise_cons.2 ⟨?_, hnames⟩
        intro n hn
        rcases List.mem_cons.1 hn with rfl | hn
        · exact hlt
        · exact String.lt_trans hlt (hother n hn)
      case isFalse hlt =>
        split
        case isTrue heq =>
          subst heq
          exact List.pairwise_cons.2 ⟨hother, hrest⟩
        case isFalse hne =>
          refine List.pairwise_cons.2 ⟨?_, ih hrest fun m hm => hmembers m (by simp [hm])⟩
          intro n hn
          obtain ⟨member, hmember, rfl⟩ := List.mem_map.1 hn
          rcases mem_setMember hmember with rfl | hmember
          · by_contra hge
            exact hne (String.le_antisymm (String.not_lt.1 hge) (String.not_lt.1 hlt))
          · exact hother _ (List.mem_map_of_mem hmember)
  · intro member hmember
    rcases mem_setMember hmember with rfl | hmember
    · exact hvalue
    · exact hmembers member hmember

theorem sorted_ofMembers {members : List (String × Json)}
    (h : ∀ member ∈ members, Sorted member.2) : Sorted (ofMembers members) := by
  have hfold : ∀ sorted : List (String × Json), Sorted (.object sorted) →
      Sorted (.object (members.foldl (fun sorted m => Json.setMember m.1 m.2 sorted) sorted)) := by
    induction members with
    | nil => exact fun _ hsorted => hsorted
    | cons first rest ih =>
      intro sorted hsorted
      exact ih (fun m hm => h m (by simp [hm])) _ (hsorted.setMember _ (h first (by simp)))
  exact hfold [] (.object List.Pairwise.nil nofun)

end Json

end Machine8086
