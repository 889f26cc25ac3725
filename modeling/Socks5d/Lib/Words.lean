import Mathlib.Data.List.Basic
import Mathlib.Data.List.DropRight

/-! # Words

The words of a text are its longest runs of elements that are not separators.
Separators before the first word and after the last one do not matter. -/
namespace Socks5d.Lib.Words

variable {α : Type} {sep : α → Bool}

/-- What is split off holds no separator. -/
theorem plain_of_mem_splitOnP {xs w : List α} (h : w ∈ xs.splitOnP sep) : ∀ x ∈ w, sep x = false := by
  induction xs generalizing w with
  | nil =>
    cases List.mem_singleton.mp h
    exact fun x hx => by cases hx
  | cons x xs ih =>
    rw [List.splitOnP_cons_eq_if_modifyHead] at h
    split at h
    · rcases List.mem_cons.mp h with rfl | h
      · exact fun x hx => by cases hx
      · exact ih h
    · next hx =>
      obtain ⟨y, ys, he⟩ := List.exists_cons_of_ne_nil (List.splitOnP_ne_nil sep xs)
      rw [he, List.modifyHead_cons] at h
      rcases List.mem_cons.mp h with rfl | h
      · intro z hz
        rcases List.mem_cons.mp hz with rfl | hz
        · simpa using hx
        · exact ih (he ▸ List.mem_cons_self) z hz
      · exact ih (he ▸ List.mem_cons_of_mem _ h)

/-- What is split off comes from the text. -/
theorem mem_of_mem_splitOnP {xs w : List α} (h : w ∈ xs.splitOnP sep) {x : α} (hx : x ∈ w) :
    x ∈ xs := by
  induction xs generalizing w with
  | nil =>
    cases List.mem_singleton.mp h
    exact hx
  | cons y ys ih =>
    rw [List.splitOnP_cons_eq_if_modifyHead] at h
    split at h
    · rcases List.mem_cons.mp h with rfl | h
      · cases hx
      · exact List.mem_cons_of_mem _ (ih h hx)
    · obtain ⟨z, zs, he⟩ := List.exists_cons_of_ne_nil (List.splitOnP_ne_nil sep ys)
      rw [he, List.modifyHead_cons] at h
      rcases List.mem_cons.mp h with rfl | h
      · rcases List.mem_cons.mp hx with rfl | hx
        · exact List.mem_cons_self
        · exact List.mem_cons_of_mem _ (ih (he ▸ List.mem_cons_self) hx)
      · exact List.mem_cons_of_mem _ (ih (he ▸ List.mem_cons_of_mem _ h) hx)

theorem mem_intercalate {x : α} {s : List α} : ∀ {ls : List (List α)}, x ∈ s.intercalate ls →
    x ∈ s ∨ ∃ l ∈ ls, x ∈ l
  | [], h => by simp [List.intercalate] at h
  | [l], h => Or.inr ⟨l, by simpa [List.intercalate] using h⟩
  | l :: m :: ls, h => by
    rw [List.intercalate_cons_cons, List.append_assoc, List.mem_append, List.mem_append] at h
    rcases h with h | h | h
    · exact Or.inr ⟨l, by simp, h⟩
    · exact Or.inl h
    · rcases mem_intercalate h with h | ⟨k, hk, hx⟩
      · exact Or.inl h
      · exact Or.inr ⟨k, List.mem_cons_of_mem _ hk, hx⟩

theorem mem_intercalate_of_mem {x : α} {s l : List α} : ∀ {ls : List (List α)}, l ∈ ls → x ∈ l →
    x ∈ s.intercalate ls
  | [_], hl, hx => by
    cases List.mem_singleton.mp hl
    simpa [List.intercalate] using hx
  | k :: m :: ls, hl, hx => by
    rw [List.intercalate_cons_cons, List.append_assoc, List.mem_append, List.mem_append]
    rcases List.mem_cons.mp hl with rfl | hl
    · exact Or.inl hx
    · exact Or.inr (Or.inr (mem_intercalate_of_mem hl hx))

theorem length_intercalate_le {x : α} {n : Nat} {ls : List (List α)} (h : ∀ l ∈ ls, l.length ≤ n) :
    ([x].intercalate ls).length ≤ ls.length * (n + 1) := by
  induction ls with
  | nil => simp [List.intercalate]
  | cons l ls ih =>
    have hl := h l List.mem_cons_self
    have hls := ih fun k hk => h k (List.mem_cons_of_mem _ hk)
    rw [List.length_cons, Nat.succ_mul]
    cases ls with
    | nil =>
      simp only [List.intercalate, List.intersperse, List.flatten_cons, List.flatten_nil,
        List.append_nil]
      omega
    | cons k ks =>
      rw [List.intercalate_cons_cons, List.length_append, List.length_append, List.length_singleton]
      omega

def words (sep : α → Bool) (xs : List α) : List (List α) :=
  (xs.splitOnP sep).filter fun w => !w.isEmpty

structure IsWord (sep : α → Bool) (w : List α) : Prop where
  ne_nil : w ≠ []
  plain : ∀ x ∈ w, sep x = false

@[simp] theorem words_nil : words sep [] = [] := rfl

/-- A separator ends a word. -/
theorem words_append {x : α} (h : sep x = true) (xs ys : List α) :
    words sep (xs ++ x :: ys) = words sep xs ++ words sep ys := by
  unfold words
  rw [List.splitOnP_append_cons xs ys h, List.filter_append]

theorem words_cons {x : α} (h : sep x = true) (xs : List α) :
    words sep (x :: xs) = words sep xs := words_append h [] xs

theorem words_snoc {x : α} (h : sep x = true) (xs : List α) :
    words sep (xs ++ [x]) = words sep xs := by
  rw [words_append h, words_nil, List.append_nil]

theorem IsWord.words {w : List α} (h : IsWord sep w) : words sep w = [w] := by
  have hne : w.isEmpty = false := List.isEmpty_eq_false_iff.mpr h.ne_nil
  unfold Words.words
  rw [List.splitOnP_eq_singleton h.plain, List.filter_cons, hne]
  rfl

theorem words_dropWhile (xs : List α) : words sep (xs.dropWhile sep) = words sep xs := by
  induction xs with
  | nil => rfl
  | cons x xs ih =>
    rw [List.dropWhile_cons]
    split
    · next h => rw [ih, words_cons h]
    · rfl

theorem words_rdropWhile (xs : List α) : words sep (xs.rdropWhile sep) = words sep xs := by
  induction xs using List.reverseRecOn with
  | nil => rfl
  | append_singleton xs x ih =>
    rw [List.rdropWhile_concat]
    split
    · next h => rw [ih, words_snoc h]
    · rfl

/-- The first word stands before the first separator. -/
theorem words_takeWhile {x : α} (h : sep x = false) (xs : List α) :
    words sep (x :: xs) = ((x :: xs).takeWhile fun y => !sep y) ::
      words sep ((x :: xs).dropWhile fun y => !sep y).tail := by
  have hword : IsWord sep ((x :: xs).takeWhile fun y => !sep y) := by
    refine ⟨by simp [h], fun y hy => ?_⟩
    have hp := List.mem_takeWhile_imp hy
    simpa using hp
  have hsplit := List.takeWhile_append_dropWhile (l := x :: xs) (p := fun y => !sep y)
  generalize (x :: xs).takeWhile (fun y => !sep y) = w at hword hsplit ⊢
  have hhead := List.head?_dropWhile_not (fun y => !sep y) (x :: xs)
  generalize (x :: xs).dropWhile (fun y => !sep y) = rest at hhead hsplit ⊢
  rw [← hsplit]
  cases rest with
  | nil => rw [List.append_nil, hword.words]; rfl
  | cons y ys =>
    have hy : sep y = true := by simpa using hhead
    rw [words_append hy, hword.words]
    rfl

theorem mem_words {xs w : List α} (h : w ∈ words sep xs) : IsWord sep w := by
  obtain ⟨hm, hne⟩ := List.mem_filter.mp h
  refine ⟨?_, plain_of_mem_splitOnP hm⟩
  intro he
  rw [he] at hne
  cases hne

/-- What is left of some pieces when the text ends at the first element that is not `p`. -/
def cut (p : α → Bool) : List (List α) → List (List α)
  | [] => []
  | w :: ws => if w.all p then w :: cut p ws else [w.takeWhile p]

theorem cut_append {p : α → Bool} {us : List (List α)} (h : ∀ w ∈ us, w.all p = true)
    (ws : List (List α)) : cut p (us ++ ws) = us ++ cut p ws := by
  induction us with
  | nil => rfl
  | cons u us ih =>
    rw [List.cons_append, cut, if_pos (h u List.mem_cons_self),
      ih fun w hw => h w (List.mem_cons_of_mem _ hw), List.cons_append]

theorem splitOnP_takeWhile {p : α → Bool} (h : ∀ x, sep x = true → p x = true) (xs : List α) :
    (xs.takeWhile p).splitOnP sep = cut p (xs.splitOnP sep) := by
  induction xs with
  | nil => rfl
  | cons x xs ih =>
    obtain ⟨w, ws, he⟩ := List.exists_cons_of_ne_nil (List.splitOnP_ne_nil sep xs)
    rw [List.splitOnP_cons_eq_if_modifyHead, List.takeWhile_cons]
    cases hx : sep x with
    | true =>
      rw [h x hx, if_pos rfl, if_pos rfl, List.splitOnP_cons_eq_if_modifyHead, hx, if_pos rfl, ih]
      rfl
    | false =>
      rw [if_neg Bool.false_ne_true, he, List.modifyHead_cons]
      cases hp : p x with
      | false =>
        rw [if_neg Bool.false_ne_true, cut, List.all_cons, hp, Bool.false_and,
          if_neg Bool.false_ne_true, List.takeWhile_cons, hp]
        rfl
      | true =>
        rw [if_pos rfl, List.splitOnP_cons_eq_if_modifyHead, hx, if_neg Bool.false_ne_true, ih, he,
          cut, cut, List.all_cons, hp, Bool.true_and, List.takeWhile_cons, hp]
        split <;> rfl

theorem filter_cut {p : α → Bool} (ls : List (List α)) :
    (cut p (ls.filter fun w => !w.isEmpty)).filter (fun w => !w.isEmpty) =
      (cut p ls).filter fun w => !w.isEmpty := by
  induction ls with
  | nil => rfl
  | cons w ls ih =>
    cases w with
    | nil => exact ih
    | cons x xs =>
      rw [List.filter_cons_of_pos rfl, cut, cut]
      split
      · rw [List.filter_cons_of_pos rfl, List.filter_cons_of_pos rfl, ih]
      · rfl

/-- The words of a text that ends early: the first that is not whole is cut. -/
theorem words_cut {p : α → Bool} (h : ∀ x, sep x = true → p x = true) (xs : List α) :
    words sep (xs.takeWhile p) = (cut p (words sep xs)).filter fun w => !w.isEmpty := by
  unfold words
  rw [splitOnP_takeWhile h, filter_cut]

/-- Words that are put together with separators are found again. -/
theorem words_intercalate {x : α} (h : sep x = true) {ws : List (List α)}
    (hw : ∀ w ∈ ws, IsWord sep w) : words sep ([x].intercalate ws) = ws := by
  induction ws with
  | nil => rfl
  | cons w ws ih =>
    have hfirst := hw w List.mem_cons_self
    have hrest := ih fun v hv => hw v (List.mem_cons_of_mem _ hv)
    cases ws with
    | nil =>
      rw [List.intercalate_singleton]
      exact hfirst.words
    | cons v ws =>
      rw [List.intercalate_cons_cons, List.append_assoc, List.singleton_append, words_append h,
        hfirst.words, hrest]
      rfl

end Socks5d.Lib.Words
