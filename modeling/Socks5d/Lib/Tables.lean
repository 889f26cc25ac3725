import Socks5d.Lib.Words

/-! # Tables as text

A line of a table is its fields with one separator between them and another
behind the last. What reads such a text finds the fields that were written as
long as none of them holds a separator, and only then. -/
namespace Socks5d.Lib.Tables
open Words

variable {α : Type} [BEq α] [LawfulBEq α] {col row : α}

/-- The lines of a text and the fields of each. A text whose last line is ended
reads with an empty one behind it. -/
def cells (col row : α) (text : List α) : List (List (List α)) :=
  (text.splitOn row).map fun l => l.splitOn col

def line (col row : α) (fields : List (List α)) : List α := [col].intercalate fields ++ [row]

theorem sep_notMem_splitOn {sep : α} {xs w : List α} (h : w ∈ xs.splitOn sep) : sep ∉ w := by
  intro hm
  rw [List.splitOn_eq_splitOnP] at h
  have hno := plain_of_mem_splitOnP h sep hm
  rw [beq_self_eq_true] at hno
  cases hno

/-- The fields of a joined text are those it was made from as long as none of
them holds the separator, and only then. -/
theorem mem_splitOn_intercalate {sep : α} {ls : List (List α)} (hne : ls ≠ []) :
    (∀ l, l ∈ ([sep].intercalate ls).splitOn sep ↔ l ∈ ls) ↔ ∀ l ∈ ls, sep ∉ l := by
  constructor
  · intro h l hl
    exact sep_notMem_splitOn ((h l).mpr hl)
  · intro h l
    rw [List.splitOn_intercalate sep h hne]

theorem cells_plain {text : List α} {fields : List (List α)} {f : List α}
    (hl : fields ∈ cells col row text) (hf : f ∈ fields) : col ∉ f ∧ row ∉ f := by
  obtain ⟨l, hsplit, rfl⟩ := List.mem_map.mp hl
  refine ⟨sep_notMem_splitOn hf, fun hm => sep_notMem_splitOn hsplit ?_⟩
  have hjoin : [col].intercalate (l.splitOn col) = l := List.intercalate_splitOn col
  exact hjoin ▸ mem_intercalate_of_mem hf hm

theorem cells_line {fields : List (List α)} (hne : fields ≠ []) (hcr : col ≠ row) :
    cells col row (line col row fields) = [fields, [[]]] ↔ ∀ f ∈ fields, col ∉ f ∧ row ∉ f := by
  constructor
  · intro h f hf
    exact cells_plain (h ▸ List.mem_cons_self) hf
  · intro h
    have hrow : row ∉ [col].intercalate fields := fun hm => by
      rcases mem_intercalate hm with hm | ⟨f, hf, hm⟩
      · exact hcr (List.mem_singleton.mp hm).symm
      · exact (h f hf).2 hm
    unfold cells line
    rw [List.splitOn_append_cons_self_of_not_mem hrow, List.splitOn_nil, List.map_cons,
      List.splitOn_intercalate col (fun f hf => (h f hf).1) hne]
    rfl

end Socks5d.Lib.Tables
