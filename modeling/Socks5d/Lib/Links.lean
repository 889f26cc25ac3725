import Mathlib.Data.List.Basic

/-! # Lists made of links

Cells that know their successor, and cells that know both neighbours, as
functions from a cell to its links. `Chain` and `Linked` say which list of
cells a head pointer stands for; the rules say what pushing and removing a cell
does to it. -/
namespace Socks5d.Lib.Links

variable {α : Type}

/-- Following `next` from `head` leads through the cells of the list, and ends. -/
def Chain (next : α → Option α) : Option α → List α → Prop
  | head, [] => head = none
  | head, p :: l => head = some p ∧ Chain next (next p) l

/-- A chain whose cells also know the cell before them; `before` stands before
the first. -/
def Linked (next prev : α → Option α) : Option α → Option α → List α → Prop
  | _, head, [] => head = none
  | before, head, p :: l => head = some p ∧ prev p = before ∧ Linked next prev (some p) (next p) l

section Chain
variable {next next' : α → Option α} {head : Option α}

theorem Chain.head_eq : ∀ {l : List α} {head : Option α}, Chain next head l → head = l.head?
  | [], _, h => h
  | _ :: _, _, h => h.1

theorem Chain.congr : ∀ {l : List α} {head : Option α}, Chain next head l →
    (∀ p ∈ l, next' p = next p) → Chain next' head l
  | [], _, h, _ => h
  | p :: l, _, h, hn =>
    ⟨h.1, by rw [hn p List.mem_cons_self]; exact h.2.congr fun q hq => hn q (List.mem_cons_of_mem _ hq)⟩

/-- A new cell in front. -/
theorem Chain.push {l : List α} {p : α} (h : Chain next head l) (hp : next' p = head)
    (hn : ∀ q ∈ l, next' q = next q) : Chain next' (some p) (p :: l) :=
  ⟨rfl, by rw [hp]; exact h.congr hn⟩

/-- The successor of a cell is the next one of the list. -/
theorem Chain.next_eq : ∀ {pre : List α} {p : α} {rest : List α} {head : Option α},
    Chain next head (pre ++ p :: rest) → next p = rest.head?
  | [], _, _, _, h => h.2.head_eq
  | _ :: _, _, _, _, h => h.2.next_eq

end Chain

section Linked
variable {next prev next' prev' : α → Option α}

theorem Linked.chain : ∀ {l : List α} {before head : Option α},
    Linked next prev before head l → Chain next head l
  | [], _, _, h => h
  | _ :: _, _, _, h => ⟨h.1, h.2.2.chain⟩

theorem Linked.congr : ∀ {l : List α} {before head : Option α}, Linked next prev before head l →
    (∀ p ∈ l, next' p = next p ∧ prev' p = prev p) → Linked next' prev' before head l
  | [], _, _, h, _ => h
  | p :: l, _, _, h, hn => by
    obtain ⟨h1, h2⟩ := hn p List.mem_cons_self
    exact ⟨h.1, h2.trans h.2.1, by rw [h1]; exact h.2.2.congr fun q hq => hn q (List.mem_cons_of_mem _ hq)⟩

/-- A new cell in front of the first. -/
theorem Linked.push [DecidableEq α] {l : List α} {p : α} {head : Option α} (h : Linked next prev none head l)
    (hnodup : l.Nodup) (hnp : next' p = head) (hpp : prev' p = none)
    (hn : ∀ q ∈ l, next' q = next q)
    (hp : ∀ q ∈ l, prev' q = if head = some q then some p else prev q) :
    Linked next' prev' none (some p) (p :: l) := by
  refine ⟨rfl, hpp, ?_⟩
  rw [hnp]
  cases l with
  | nil => exact h
  | cons q l =>
    obtain ⟨h1, -, h3⟩ := h
    have hq : q ∉ l := (List.nodup_cons.mp hnodup).1
    refine ⟨h1, by rw [hp q List.mem_cons_self, if_pos h1], ?_⟩
    rw [hn q List.mem_cons_self]
    refine h3.congr fun r hr => ⟨hn r (List.mem_cons_of_mem _ hr), ?_⟩
    have hne : head ≠ some r := by
      rw [h1]
      intro he
      cases Option.some.inj he
      exact hq hr
    rw [hp r (List.mem_cons_of_mem _ hr), if_neg hne]

/-- The cell before the first is outside; every other predecessor is inside. -/
theorem Linked.prev_mem : ∀ {l : List α} {before head : Option α},
    Linked next prev before head l → ∀ p ∈ l, head = some p ∧ prev p = before ∨
      ∃ q ∈ l, prev p = some q
  | p :: l, _, _, h, r, hr => by
    rcases List.mem_cons.mp hr with rfl | hr
    · exact Or.inl ⟨h.1, h.2.1⟩
    · rcases h.2.2.prev_mem r hr with ⟨-, h2⟩ | ⟨q, hq, h2⟩
      · exact Or.inr ⟨p, List.mem_cons_self, h2⟩
      · exact Or.inr ⟨q, List.mem_cons_of_mem _ hq, h2⟩

/-- The first cell is the one without a predecessor. -/
theorem Linked.prev_none {l : List α} {head : Option α} {p : α} (h : Linked next prev none head l)
    (hp : p ∈ l) : prev p = none ↔ head = some p := by
  constructor
  · intro hn
    rcases h.prev_mem p hp with ⟨h1, -⟩ | ⟨q, -, h1⟩
    · exact h1
    · rw [hn] at h1; cases h1
  · intro hh
    cases l with
    | nil => cases hp
    | cons q l =>
      have hq : q = p := Option.some.inj (h.1.symm.trans hh)
      exact hq ▸ h.2.1

variable [DecidableEq α]

/-- A cell is taken out; its neighbours now point at each other. -/
theorem Linked.remove : ∀ {l : List α} {before head : Option α} {p : α},
    Linked next prev before head l → l.Nodup → (∀ b, before = some b → b ∉ l) → p ∈ l →
    (∀ q ∈ l, q ≠ p → next' q = if prev p = some q then next p else next q) →
    (∀ q ∈ l, q ≠ p → prev' q = if next p = some q then prev p else prev q) →
    Linked next' prev' before (if head = some p then next p else head) (l.erase p)
  | x :: l, before, head, p, h, hnd, hb, hp, hn, hpr => by
    obtain ⟨hx, hl⟩ := List.nodup_cons.mp hnd
    obtain ⟨h1, h2, h3⟩ := h
    by_cases hxp : x = p
    · -- the first cell goes
      subst hxp
      rw [if_pos h1, List.erase_cons_head]
      cases l with
      | nil => exact h3
      | cons y l =>
        obtain ⟨h4, h5, h6⟩ := h3
        have hy : y ≠ x := fun he => hx (by rw [← he]; exact List.mem_cons_self)
        have hyl : y ∉ l := (List.nodup_cons.mp hl).1
        have hprev : ∀ q ∈ y :: l, prev x ≠ some q := fun q hq he =>
          hb q (h2 ▸ he) (List.mem_cons_of_mem _ hq)
        have hnext : ∀ q ∈ l, next x ≠ some q := fun q hq he => by
          rw [h4] at he
          exact hyl (Option.some.inj he ▸ hq)
        refine ⟨h4, ?_, ?_⟩
        · rw [hpr y (by simp) hy, if_pos h4, h2]
        · rw [hn y (by simp) hy, if_neg (hprev y List.mem_cons_self)]
          refine h6.congr fun q hq => ?_
          have hqx : q ≠ x := fun he => hx (by rw [← he]; exact List.mem_cons_of_mem _ hq)
          have hql : q ∈ x :: y :: l := by simp [hq]
          exact ⟨by rw [hn q hql hqx, if_neg (hprev q (List.mem_cons_of_mem _ hq))],
            by rw [hpr q hql hqx, if_neg (hnext q hq)]⟩
    · -- a later cell goes
      have hpl : p ∈ l := (List.mem_cons.mp hp).resolve_left fun he => hxp he.symm
      have hhead : head ≠ some p := by
        rw [h1]
        exact fun he => hxp (Option.some.inj he)
      rw [if_neg hhead, List.erase_cons_tail (by simpa using hxp)]
      have hnx : next' x = if next x = some p then next p else next x := by
        rw [hn x List.mem_cons_self hxp]
        rcases h3.prev_mem p hpl with ⟨h4, h5⟩ | ⟨q, hq, h5⟩
        · rw [if_pos h5, if_pos h4]
        · have hne : next x ≠ some p := by
            intro he
            cases l with
            | nil => cases hpl
            | cons y l =>
              rw [h3.1] at he
              cases Option.some.inj he
              rw [h3.2.1] at h5
              exact hx (Option.some.inj h5 ▸ hq)
          have hne' : prev p ≠ some x := by
            rw [h5]
            exact fun he => hx (Option.some.inj he ▸ hq)
          rw [if_neg hne', if_neg hne]
      have hpx : prev' x = prev x := by
        rw [hpr x List.mem_cons_self hxp]
        refine if_neg fun he => hx ?_
        obtain ⟨pre, rest, hsplit⟩ := List.append_of_mem hpl
        have h6 : next p = rest.head? := (hsplit ▸ h3.chain : Chain next _ (pre ++ p :: rest)).next_eq
        rw [h6] at he
        rw [hsplit]
        exact List.mem_append_right _ (List.mem_cons_of_mem _ (List.mem_of_mem_head? he))
      refine ⟨h1, hpx.trans h2, ?_⟩
      rw [hnx]
      exact h3.remove hl (fun b hb' => by cases hb'; exact hx) hpl
        (fun q hq hqp => hn q (List.mem_cons_of_mem _ hq) hqp)
        (fun q hq hqp => hpr q (List.mem_cons_of_mem _ hq) hqp)

end Linked
end Socks5d.Lib.Links
