import Mathlib
import Slideshow.Document
import Slideshow.Proofs.Trial

/-!
# Records that are read back

A record is written as a table with a field for each value that is there, and finds its values in
that table again.

* `fieldsOf` are the fields of a record that are there; `mapM_single?`: each name finds its value.
* `listOf?_map`, `nat?_ofNat`, `int?_integer`: lists and numbers.

Headline:
* **`record?_fieldsOf`**: a table with the fields of a record is read as that record.
-/

namespace Slideshow.Document

variable {α : Type}

/-! ## Tables -/

/-- The fields of a record that are there, in the order of their names. -/
def fieldsOf (names : List String) (values : List (Option Document)) : List (String × Document) :=
  (names.zip values).filterMap fun p => p.2.map (p.1, ·)

theorem fieldsOf_some (names : List String) (values : List Document) :
    fieldsOf names (values.map some) = names.zip values := by
  rw [fieldsOf, List.zip_map_right, List.filterMap_map]
  exact List.filterMap_some

theorem mem_values_of_mem_fieldsOf {names : List String} {values : List (Option Document)}
    {f : String × Document} (h : f ∈ fieldsOf names values) : some f.2 ∈ values := by
  obtain ⟨⟨name, value⟩, hp, hf⟩ := List.mem_filterMap.mp h
  obtain ⟨d, rfl, rfl⟩ := Option.map_eq_some_iff.mp hf
  exact (List.of_mem_zip hp).2

theorem mem_names_of_mem_fieldsOf {names : List String} {values : List (Option Document)}
    {f : String × Document} (h : f ∈ fieldsOf names values) : f.1 ∈ names := by
  obtain ⟨⟨name, value⟩, hp, hf⟩ := List.mem_filterMap.mp h
  obtain ⟨d, -, rfl⟩ := Option.map_eq_some_iff.mp hf
  exact (List.of_mem_zip hp).1

/-- A field is looked for among those with its name. -/
theorem single?_cons_of_ne {name other : String} (h : name ≠ other) (d : Document)
    (fields : List (String × Document)) :
    single? name ((other, d) :: fields) = single? name fields := by
  have hfilter : ((other, d) :: fields).filter (·.1 == name) = fields.filter (·.1 == name) :=
    List.filter_cons_of_neg (by simpa using Ne.symm h)
  rw [single?, single?, hfilter]

theorem single?_of_not_mem {name : String} {fields : List (String × Document)}
    (h : ∀ f ∈ fields, f.1 ≠ name) :
    single? name fields = some none := by
  have hfilter : fields.filter (·.1 == name) = [] :=
    List.filter_eq_nil_iff.mpr fun f hf => by simpa using h f hf
  rw [single?, hfilter]

theorem single?_cons_self {name : String} (d : Document) {fields : List (String × Document)}
    (h : ∀ f ∈ fields, f.1 ≠ name) : single? name ((name, d) :: fields) = some (some d) := by
  have hfilter : ((name, d) :: fields).filter (·.1 == name) = [(name, d)] := by
    rw [List.filter_cons_of_pos (by simp), List.filter_eq_nil_iff.mpr fun f hf => by
      simpa using h f hf]
  rw [single?, hfilter]

theorem mapM_congr_option {f g : String → Option α} {xs : List String} (h : ∀ x ∈ xs, f x = g x) :
    xs.mapM f = xs.mapM g := by
  induction xs with
  | nil => rfl
  | cons x xs ih =>
    obtain ⟨hx, hxs⟩ := List.forall_mem_cons.mp h
    rw [List.mapM_cons, List.mapM_cons, hx, ih hxs]

/-- Each name finds its value. -/
theorem mapM_single? {names : List String} : ∀ {values : List (Option Document)}, names.Nodup →
    names.length = values.length →
        names.mapM (single? · (fieldsOf names values)) = some values := by
  induction names with
  | nil =>
    intro values _ hlength
    rw [List.length_eq_zero_iff.mp hlength.symm]
    rfl
  | cons name names ih =>
    intro values hnodup hlength
    obtain ⟨hname, hnodup⟩ := List.nodup_cons.mp hnodup
    cases values with
    | nil => cases hlength
    | cons value values =>
      have hother : ∀ f ∈ fieldsOf names values, f.1 ≠ name := fun f hf h =>
        hname (h ▸ mem_names_of_mem_fieldsOf hf)
      have hrest := ih hnodup (Nat.succ.inj hlength)
      cases value with
      | none =>
        have hfields : fieldsOf (name :: names) (none :: values) = fieldsOf names values := rfl
        rw [hfields, List.mapM_cons, single?_of_not_mem hother, hrest]
        rfl
      | some d =>
        have hfields : fieldsOf (name :: names) (some d :: values) =
          (name, d) :: fieldsOf names values := rfl
        have hsame : ∀ n ∈ names, single? n ((name, d) :: fieldsOf names values) =
            single? n (fieldsOf names values) := fun n hn =>
          single?_cons_of_ne (fun h : n = name => hname (h ▸ hn)) d _
        rw [hfields, List.mapM_cons, single?_cons_self d hother, mapM_congr_option hsame, hrest]
        rfl

/-- **A table with the fields of a record is read as that record**, also where unknown fields are
refused. -/
theorem record?_fieldsOf {strictness : Strictness} {names : List String}
    {values : List (Option Document)} (hnodup : names.Nodup)
    (hlength : names.length = values.length) :
    record? strictness names (.table (fieldsOf names values)) = some ⟨values⟩ := by
  have hknown : (fieldsOf names values).any (fun f => !names.contains f.1) = false :=
    List.any_eq_false.mpr fun f hf => by simpa using mem_names_of_mem_fieldsOf hf
  rw [record?, hknown, Bool.and_false, if_neg Bool.false_ne_true, mapM_single? hnodup hlength]
  rfl

/-- A table with all fields of a record is read as that record. -/
theorem record?_zip {names : List String} {values : List Document} (hnodup : names.Nodup)
    (hlength : names.length = values.length) :
    record? .lenient names (.table (names.zip values)) = some ⟨values.map some⟩ := by
  rw [← fieldsOf_some]
  exact record?_fieldsOf hnodup (by rw [List.length_map, hlength])

/-! ## Values -/

theorem listOf?_map {read : Document → Option α} {write : α → Document} {xs : List α}
    (h : ∀ x ∈ xs, read (write x) = some x) : listOf? read (.list (xs.map write)) = some xs := by
  rw [listOf?]
  induction xs with
  | nil => rfl
  | cons x xs ih =>
    obtain ⟨hx, hxs⟩ := List.forall_mem_cons.mp h
    rw [List.map_cons, List.mapM_cons, hx, ih hxs]
    rfl

theorem nat?_ofNat {bound n : Nat} (h : n < bound) : nat? bound (ofNat n) = some n := by
  rw [ofNat, nat?, if_pos (by simp [h]), Int.toNat_natCast]

theorem int?_integer {low high n : Int} (hlow : low ≤ n) (hhigh : n < high) :
    int? low high (.integer n) = some n := by
  rw [int?, if_pos (by simp [hlow, hhigh])]

theorem int32?_integer {n : Int} (hlow : -2 ^ 31 ≤ n) (hhigh : n < 2 ^ 31) :
    int32? (.integer n) = some n :=
  int?_integer (by omega) (by omega)

theorem nat?_lt {bound n : Nat} {d : Document} (h : nat? bound d = some n) : n < bound := by
  unfold nat? at h
  split at h
  · split at h
    · next hbounds =>
      cases h
      simp only [Bool.and_eq_true, decide_eq_true_eq] at hbounds
      omega
    · cases h
  · cases h

theorem int?_mem {low high n : Int} {d : Document} (h : int? low high d = some n) :
    low ≤ n ∧ n < high := by
  unfold int? at h
  split at h
  · split at h
    · next hbounds =>
      cases h
      simpa using hbounds
    · cases h
  · cases h

theorem int32?_mem {n : Int} {d : Document} (h : int32? d = some n) : -2 ^ 31 ≤ n ∧ n < 2 ^ 31 := by
  have hmem := int?_mem h
  omega

theorem of_listOf? {read : Document → Option α} {P : α → Prop} (h : ∀ {d a}, read d = some a → P a)
    {d : Document} {xs : List α} (hxs : listOf? read d = some xs) : ∀ x ∈ xs, P x := by
  have hitems : ∀ {items : List Document}, items.mapM read = some xs → ∀ x ∈ xs, P x :=
    fun hread x hx =>
    (exists_of_mapM_some hread x hx).elim fun _ hitem => h hitem.2
  unfold listOf? at hxs
  split at hxs
  · exact hitems hxs
  · exact hitems hxs
  · cases hxs

/-- The value of a field that must be there was read. -/
theorem of_required {r : Record} {i : Nat} {read : Document → Option α} {a : α}
    (h : r.required i read = some a) :
    ∃ d, read d = some a := by
  obtain ⟨d, -, hd⟩ := Option.bind_eq_some_iff.mp h
  exact ⟨d, hd⟩

theorem required_eq {r : Record} {i : Nat} {d : Document} (h : r.values[i]?.join = some d)
    (read : Document → Option α) : r.required i read = read d := by
  rw [Record.required, h, Option.bind_some]

/-- An optional value is read back. -/
theorem optionalOrNone_map {r : Record} {i : Nat} {read : Document → Option α}
    {write : α → Document} {o : Option α} (h : r.values[i]?.join = o.map write)
    (hread : ∀ a, read (write a) = some a) (hnull : ∀ a, write a ≠ .null) :
    r.optionalOrNone i read = some o := by
  rw [Record.optionalOrNone, h]
  cases o with
  | none => rfl
  | some a =>
    rw [Option.map_some]
    split
    · next hnone => cases hnone
    · next hwritten => exact absurd (Option.some.inj hwritten) (hnull a)
    · next d _ hd =>
      cases hd
      rw [hread, Option.map_some]

end Slideshow.Document
