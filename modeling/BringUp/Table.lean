/-!
Total maps over finite index types.

* `Enumerated ι`: the members of `ι` are numbered from 0 without gaps.
* `Table ι α`: one cell of type `α` for every member of `ι`.

Main statements: a cell that was set reads back (`Table.get_set_self`), the
others keep their content (`Table.get_set_of_ne`), and tables with the same
cells are equal (`Table.ext_get`).
-/

namespace BringUp

/-- The members of `ι` are numbered `0, …, size - 1`. -/
class Enumerated (ι : Type) where
  size : Nat
  index : ι → Fin size
  member : Fin size → ι
  member_index : ∀ i, member (index i) = i
  index_member : ∀ n, index (member n) = n

/-- All members, in order of their numbers. -/
def Enumerated.all (ι : Type) [Enumerated ι] : List ι :=
  (List.finRange (size ι)).map member

theorem Enumerated.mem_all {ι : Type} [Enumerated ι] (i : ι) : i ∈ all ι :=
  List.mem_map.mpr ⟨index i, List.mem_finRange _, member_index i⟩

/-- One cell of type `α` for every member of `ι`. -/
structure Table (ι α : Type) [Enumerated ι] where
  cells : Vector α (Enumerated.size ι)

namespace Table

variable {ι α : Type} [Enumerated ι]

/-- Every cell holds `a`. -/
def replicate (a : α) : Table ι α :=
  ⟨Vector.replicate _ a⟩

/-- The content of cell `i`. -/
def get (t : Table ι α) (i : ι) : α :=
  t.cells[Enumerated.index i]

/-- `t` with cell `i` replaced by `a`. -/
def set (t : Table ι α) (i : ι) (a : α) : Table ι α :=
  ⟨t.cells.set (Enumerated.index i) a⟩

private theorem index_inj {i j : ι}
    (h : Enumerated.index i = Enumerated.index j) : i = j := by
  rw [← Enumerated.member_index i, h, Enumerated.member_index]

@[simp]
theorem get_replicate (a : α) (i : ι) : (replicate a : Table ι α).get i = a := by
  simp [get, replicate]

@[simp]
theorem get_set_self (t : Table ι α) (i : ι) (a : α) : (t.set i a).get i = a := by
  simp [get, set]

theorem get_set_of_ne (t : Table ι α) {i j : ι} (h : i ≠ j) (a : α) :
    (t.set i a).get j = t.get j := by
  have hne : (Enumerated.index i : Nat) ≠ Enumerated.index j :=
    fun heq => h (index_inj (Fin.ext heq))
  simp [get, set, hne]

theorem get_set [DecidableEq ι] (t : Table ι α) (i j : ι) (a : α) :
    (t.set i a).get j = if i = j then a else t.get j := by
  split
  · next h => subst h; simp
  · next h => exact get_set_of_ne t h a

/-- Two tables with the same cells are equal. -/
theorem ext_get {s t : Table ι α} (h : ∀ i, s.get i = t.get i) : s = t := by
  obtain ⟨s⟩ := s
  obtain ⟨t⟩ := t
  congr
  apply Vector.ext
  intro n hn
  have := h (Enumerated.member ⟨n, hn⟩)
  simpa [get, Enumerated.index_member] using this

/-- Of two contents of one cell the last one counts. -/
theorem set_set [DecidableEq ι] (t : Table ι α) (i : ι) (a b : α) :
    (t.set i a).set i b = t.set i b := by
  refine ext_get fun j => ?_
  simp only [get_set]
  split <;> rfl

end Table

end BringUp
