import Machine8086.Snapshot
import Mathlib.Data.List.Nodup
import Mathlib.Data.List.Pairwise
import Mathlib.Data.List.Forall2

/-!
# Records

A record is read part by part. Where its parts make it up and have nothing in common (`Divides`), an
object is read exactly if each part finds its value under its name, and what else is in the object
does not matter (`record_object_eq_ok_iff`). An array is read exactly if it holds the values of the
parts in order (`record_array_eq_ok_iff`).
-/

namespace Machine8086.Snapshot

/-- A part of a record: its name, how its value is read, and how it is seen and set. -/
structure Part (α : Type) where
  name : String
  Value : Type
  read : Json → Except SnapshotError Value
  get : α → Value
  set : Value → α → α

namespace Part

variable {α : Type} (p q : Part α)

/-- The member of an object that is stored into the part. -/
def member : Member α :=
  ⟨p.name, fun value record => return p.set (← p.read value) record⟩

/-- The value is that of the part in the record. -/
def Holds (value : Json) (record : α) : Prop := p.read value = .ok (p.get record)

/-- The part is that of a found value, or as it was if none is found. -/
def IsFrom (blank : α) (found : Option Json) (record : α) : Prop :=
  match found with
  | some value => p.Holds value record
  | none => p.get record = p.get blank

/-- The parts have different names, and setting one leaves the other alone. -/
@[mk_iff]
structure Apart : Prop where
  name_ne : p.name ≠ q.name
  get_set : ∀ value record, q.get (p.set value record) = q.get record
  get_set' : ∀ value record, p.get (q.set value record) = p.get record

instance : Std.Symm (@Apart α) where
  symm _ _ h := ⟨h.name_ne.symm, h.get_set', h.get_set⟩

end Part

/-- The parts make up the record and have nothing in common. -/
structure Divides {α : Type} (parts : List (Part α)) : Prop where
  apart : parts.Pairwise Part.Apart
  get_set : ∀ p ∈ parts, ∀ value record, p.get (p.set value record) = value
  ext : ∀ record record', (∀ p ∈ parts, p.get record = p.get record') → record = record'

namespace Divides

variable {α : Type} {parts : List (Part α)} {p q : Part α}

theorem nodup (h : Divides parts) : parts.Nodup :=
  h.apart.imp fun hapart heq => hapart.name_ne (congrArg Part.name heq)

theorem apart_of_ne (h : Divides parts) (hp : p ∈ parts) (hq : q ∈ parts) (hne : p ≠ q) :
    p.Apart q :=
  h.apart.forall hp hq hne

theorem eq_of_name_eq (h : Divides parts) (hp : p ∈ parts) (hq : q ∈ parts)
    (hname : p.name = q.name) : p = q := by
  by_contra hne
  exact (h.apart_of_ne hp hq hne).name_ne hname

theorem eq_iff (h : Divides parts) (record record' : α) :
    record = record' ↔ ∀ p ∈ parts, p.get record = p.get record' := by
  constructor
  · rintro rfl p hp
    rfl
  · exact h.ext record record'

theorem find?_member (h : Divides parts) (hp : p ∈ parts) :
    (parts.map Part.member).find? (·.name == p.name) = some p.member := by
  cases hfind : (parts.map Part.member).find? (·.name == p.name) with
  | none =>
    rw [List.find?_eq_none] at hfind
    exact absurd (beq_self_eq_true p.name) (hfind p.member (List.mem_map_of_mem hp))
  | some member =>
    obtain ⟨q, hq, rfl⟩ := List.mem_map.1 (List.mem_of_find?_eq_some hfind)
    have hname : q.member.name = p.name := by simpa using List.find?_some hfind
    rw [h.eq_of_name_eq hq hp hname]

/-- Once a part is set, the parts that nothing is found for are the others. -/
theorem forall_isFrom_set_iff (h : Divides parts) (hp : p ∈ parts) {x : p.Value}
    {blank record : α} (found : String → Option Json) (hnone : found p.name = none) :
    (∀ q ∈ parts, q.IsFrom (p.set x blank) (found q.name) record) ↔
      p.get record = x ∧ ∀ q ∈ parts, q ≠ p → q.IsFrom blank (found q.name) record := by
  have hother : ∀ q ∈ parts, q ≠ p →
      (q.IsFrom (p.set x blank) (found q.name) record ↔
        q.IsFrom blank (found q.name) record) := by
    intro q hq hne
    cases found q.name with
    | some value => exact Iff.rfl
    | none => rw [Part.IsFrom, Part.IsFrom, (h.apart_of_ne hp hq hne.symm).get_set]
  constructor
  · intro hall
    have hpart := hall p hp
    rw [hnone, Part.IsFrom, h.get_set p hp] at hpart
    exact ⟨hpart, fun q hq hne => (hother q hq hne).1 (hall q hq)⟩
  · rintro ⟨rfl, hall⟩ q hq
    by_cases heq : q = p
    · subst heq
      rw [hnone, Part.IsFrom, h.get_set q hq]
    · exact (hother q hq heq).2 (hall q hq heq)

end Divides

section Records

variable {α : Type} {parts : List (Part α)}

/-- Storing a part reads its value and goes on with the part set. -/
theorem store_bind_eq_ok_iff (p : Part α) (value : Json) (blank record : α)
    (next : α → Except SnapshotError α) :
    (p.member.store value blank >>= next) = .ok record ↔
      ∃ x, p.read value = .ok x ∧ next (p.set x blank) = .ok record := by
  dsimp only [Part.member]
  cases p.read value with
  | ok x => simp [bind, Except.bind, pure, Except.pure]
  | error e => simp [bind, Except.bind]

/-- Storing the members of an object: each part is that of the member of its name, or as before if
there is none. -/
theorem storeMembers_eq_ok_iff (h : Divides parts) {members : List (String × Json)}
    (hnames : (members.map Prod.fst).Nodup) (blank record : α) :
    storeMembers (parts.map Part.member) members blank = .ok record ↔
      ∀ p ∈ parts, p.IsFrom blank (members.lookup p.name) record := by
  induction members generalizing blank with
  | nil =>
    rw [storeMembers, Except.ok.injEq, eq_comm]
    exact h.eq_iff record blank
  | cons first rest ih =>
    obtain ⟨name, value⟩ := first
    obtain ⟨hfresh, hrest⟩ := List.nodup_cons.1 hnames
    have hother : ∀ q : Part α, q.name ≠ name →
        ((name, value) :: rest).lookup q.name = rest.lookup q.name := by
      intro q hne
      rw [List.lookup_cons, beq_eq_false_iff_ne.2 hne]
    rw [storeMembers]
    by_cases hpart : ∃ p ∈ parts, p.name = name
    · obtain ⟨p, hp, rfl⟩ := hpart
      have hmissing : rest.lookup p.name = none := by
        rw [List.lookup_eq_none_iff]
        intro member hmember
        rw [bne_iff_ne]
        exact fun hname => hfresh (List.mem_map.2 ⟨member, hmember, hname.symm⟩)
      rw [h.find?_member hp]
      dsimp only
      rw [store_bind_eq_ok_iff]
      -- this member decides its part, and those after it the others
      constructor
      · rintro ⟨x, hread, hstore⟩ q hq
        obtain ⟨rfl, hrecord⟩ :=
          (h.forall_isFrom_set_iff hp (rest.lookup ·) hmissing).1 ((ih hrest _).1 hstore)
        by_cases heq : q = p
        · rw [heq, List.lookup_cons_self]
          exact hread
        · rw [hother q fun hname => heq (h.eq_of_name_eq hq hp hname)]
          exact hrecord q hq heq
      · intro hrecord
        have hread := hrecord p hp
        rw [List.lookup_cons_self] at hread
        refine ⟨p.get record, hread, (ih hrest _).2 ?_⟩
        refine (h.forall_isFrom_set_iff hp (rest.lookup ·) hmissing).2 ⟨rfl, fun q hq heq => ?_⟩
        rw [← hother q fun hname => heq (h.eq_of_name_eq hq hp hname)]
        exact hrecord q hq
    · have hnone : (parts.map Part.member).find? (·.name == name) = none := by
        rw [List.find?_eq_none]
        rintro member hmember hname
        obtain ⟨p, hp, rfl⟩ := List.mem_map.1 hmember
        exact hpart ⟨p, hp, beq_iff_eq.1 hname⟩
      rw [hnone]
      dsimp only
      rw [ih hrest]
      apply forall₂_congr
      intro q hq
      rw [hother q fun hname => hpart ⟨q, hq, hname⟩]

/-- Storing the elements of an array: they are the values of the parts in order, and each other part
is as before. -/
theorem storeElements_eq_ok_iff (h : Divides parts) (expected : Expected)
    (shape : List (Member α)) (length : Nat) {ps : List (Part α)} (hps : ps.Sublist parts)
    (values : List Json) (blank record : α) :
    storeElements expected shape length (ps.map Part.member) values blank = .ok record ↔
      List.Forall₂ (fun p value => p.Holds value record) ps values ∧
        ∀ q ∈ parts, q ∉ ps → q.get record = q.get blank := by
  induction ps generalizing values blank with
  | nil =>
    cases values with
    | nil =>
      rw [List.map_nil, storeElements, Except.ok.injEq, eq_comm, h.eq_iff]
      simp
    | cons value values => simp [storeElements]
  | cons p ps ih =>
    cases values with
    | nil => simp [storeElements]
    | cons value values =>
      have hp : p ∈ parts := hps.subset List.mem_cons_self
      have hfresh : p ∉ ps := (List.nodup_cons.1 (h.nodup.sublist hps)).1
      have hrest : ps.Sublist parts := (List.sublist_cons_self p ps).trans hps
      rw [List.map_cons, storeElements, store_bind_eq_ok_iff, List.forall₂_cons]
      constructor
      · rintro ⟨x, hread, hstore⟩
        obtain ⟨hvalues, hothers⟩ := (ih hrest values _).1 hstore
        have hpart := hothers p hp hfresh
        rw [h.get_set p hp] at hpart
        refine ⟨⟨hread.trans (congrArg _ hpart.symm), hvalues⟩, fun q hq hnot => ?_⟩
        rw [List.mem_cons, not_or] at hnot
        rw [hothers q hq hnot.2, (h.apart_of_ne hp hq (Ne.symm hnot.1)).get_set]
      · rintro ⟨⟨hread, hvalues⟩, hothers⟩
        refine ⟨p.get record, hread, (ih hrest values _).2 ⟨hvalues, fun q hq hmem => ?_⟩⟩
        by_cases heq : q = p
        · rw [heq, h.get_set p hp]
        · rw [(h.apart_of_ne hp hq (Ne.symm heq)).get_set]
          exact hothers q hq (by rw [List.mem_cons, not_or]; exact ⟨heq, hmem⟩)

/-- A record is read from an object exactly if each part finds its value under its name; members of
other names do not matter. -/
theorem record_object_eq_ok_iff (h : Divides parts) (expected : Expected) (blank record : α)
    {members : List (String × Json)} (hnames : (members.map Prod.fst).Nodup) :
    Snapshot.record expected (parts.map Part.member) blank (.object members) = .ok record ↔
      ∀ p ∈ parts, ∃ value, members.lookup p.name = some value ∧ p.Holds value record := by
  have hfound : (∀ p ∈ parts, ∃ value, members.lookup p.name = some value ∧
      p.Holds value record) ↔ (∀ p ∈ parts, p.IsFrom blank (members.lookup p.name) record) ∧
        (parts.map Part.member).find? (fun member => members.lookup member.name |>.isNone) =
          none := by
    rw [List.find?_eq_none, List.forall_mem_map, ← forall₂_and]
    apply forall₂_congr
    intro p hp
    change _ ↔ _ ∧ ¬ (members.lookup p.name).isNone = true
    cases members.lookup p.name with
    | some value => simp [Part.IsFrom]
    | none => simp
  rw [hfound, ← storeMembers_eq_ok_iff h hnames, Snapshot.record]
  cases storeMembers (parts.map Part.member) members blank with
  | error e => simp [bind, Except.bind]
  | ok result =>
    dsimp only [bind, Except.bind]
    cases (parts.map Part.member).find? (fun member => members.lookup member.name |>.isNone) with
    | some member => simp
    | none => simp

/-- A record is read from an array exactly if it holds the values of the parts in order. -/
theorem record_array_eq_ok_iff (h : Divides parts) (expected : Expected) (blank record : α)
    (values : List Json) :
    Snapshot.record expected (parts.map Part.member) blank (.array values) = .ok record ↔
      List.Forall₂ (fun p value => p.Holds value record) parts values := by
  rw [Snapshot.record, storeElements_eq_ok_iff h _ _ _ (List.Sublist.refl parts)]
  exact and_iff_left fun q hq hmem => absurd hq hmem

end Records

end Machine8086.Snapshot
