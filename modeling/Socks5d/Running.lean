import Socks5d.Looping

/-! # Runs

From its start on the process is in good order, step by step. What is taken for
granted of a step is a condition on the state before it and on its input; a run
meets it when all its steps do. -/
namespace Socks5d
open Ctx Lib.Links

/-- Every step of the run meets `P`. -/
def World.Along (P : World → Input → Prop) : World → List Input → Prop
  | _, [] => True
  | w, i :: is => P w i ∧ Along P (w.step i) is

/-- A step is what the terms take it to be, if the process is still running. -/
def Terms.Granted (τ : Terms) (w : World) (i : Input) : Prop := w.Running → τ.Met w i.event

section Run
variable {τ : Terms} {ρ ρ' : Roster} {w w' : World}

/-- The process is in good order, and its walk has heard what it needs. -/
structure Orderly (τ : Terms) (ρ : Roster) (w : World) : Prop where
  inv : Inv τ ρ w
  calm : AllCalm ρ w
  heard : τ.strict → ∀ i n, w.phase = .walk i n → w.Heard i

theorem Advanced.orderly (h : Advanced τ ρ ρ' w w') : Orderly τ ρ' w' := ⟨h.inv, h.calm, h.heard⟩

theorem Orderly.step (h : Orderly τ ρ w) {i : Input} (hm : τ.Granted w i) :
    ∃ ρ', Advanced τ ρ ρ' w (w.step i) := by
  unfold World.step
  split
  · next hr =>
    obtain ⟨h1, hc1⟩ := h.inv.load h.calm hr.1 i
    have hm1 : τ.Met (w.load i) i.event := by
      obtain ⟨hclear, hfair, hprompt⟩ := hm hr
      exact ⟨hclear, hfair, hprompt⟩
    obtain ⟨ρ', h2⟩ := h1.handle hc1 h.heard hm1
    exact ⟨ρ', h2.inv, h2.calm, h2.heard, h2.size, h2.settings⟩
  · exact ⟨ρ, .refl h.inv h.calm h.heard⟩

end Run

/-! ## Start -/

/-- No name in the store the process starts with holds a line feed. -/
def Boot.Tidy (b : Boot) : Prop := ∀ u, b.start.g.users = some u → u.Plain

/-- The terms of a run of a server that was started like this. -/
structure Boot.Fits (b : Boot) (τ : Terms) : Prop where
  inherited : τ.inherited = b.others
  secret : τ.secret = b.adminSecret
  tidy : τ.tidy ↔ b.Tidy

theorem wf_foldl : ∀ (us : List (Bytes × Bytes)) {u : Users}, u.Wf →
    (us.foldl (fun u e => (u.usersAdd e.1 e.2).1) u).Wf
  | [], _, h => h
  | e :: us, _, h => wf_foldl us (h.usersAdd e.1 e.2)

theorem Boot.stocked (b : Boot) : Stocked b.Tidy b.start.g.users := by
  refine ⟨_, rfl, wf_foldl b.users Users.wf_create, fun hp u hu => ?_, fun ht => ht _ rfl⟩
  cases hu
  exact hp

/-- No sessions yet. -/
def Roster.empty : Roster := ⟨[], [], []⟩

/-- The two listeners are registered, and nothing else is. -/
theorem Boot.start_items (b : Boot) : b.start.sel.fds =
      Function.update (Function.update (fun _ => none) b.socksFd (some ⟨opRead, .socksListener, 0⟩))
        b.mngFd (some ⟨opRead, .mngListener, 0⟩) ∧
    Table b.start.os b.start.sel ∧ b.start.sel.resolutionJobs = [] := by
  have hopen : ∀ fd, fd = b.socksFd ∨ fd = b.mngFd → ∃ k, b.start.os.fds fd = some k := by
    intro fd hfd
    refine ⟨{ conn := .established }, if_pos ?_⟩
    rcases hfd with rfl | rfl
    · exact Or.inl rfl
    · exact Or.inr (Or.inl rfl)
  have h0 : Table b.start.os selectorNew :=
    ⟨fun _ _ h => (by cases h), fun _ _ h => (by cases h), fun _ => rfl, fun _ => rfl⟩
  obtain ⟨m1, hs1⟩ := register_new (s := selectorNew) b.socksFd_valid rfl .socksListener opRead 0
  have h1 := h0.setItem ⟨opRead, .socksListener, 0⟩ b.socksFd_valid (hopen _ (Or.inl rfl)) m1
  have hfree : Function.update selectorNew.fds b.socksFd (some ⟨opRead, .socksListener, 0⟩) b.mngFd
      = none := Function.update_of_ne b.fds_ne.symm _ _
  obtain ⟨m2, hs2⟩ := register_new (s := { selectorNew with
      fds := Function.update selectorNew.fds b.socksFd (some ⟨opRead, .socksListener, 0⟩)
      maxFd := m1
      masterR := Function.update selectorNew.masterR b.socksFd opRead.read
      masterW := Function.update selectorNew.masterW b.socksFd opRead.write })
    b.mngFd_valid hfree .mngListener opRead 0
  have h2 := h1.setItem ⟨opRead, .mngListener, 0⟩ b.mngFd_valid (hopen _ (Or.inr rfl)) m2
  have hsel := congrArg Prod.fst hs2
  have hstart : b.start.sel = _ :=
    (congrArg (fun r => (Selector.selectorRegister r b.mngFd .mngListener opRead 0).1)
      (congrArg Prod.fst hs1)).trans hsel
  rw [hstart]
  exact ⟨rfl, h2, rfl⟩

theorem Boot.start_orderly (b : Boot) {τ : Terms} (hf : b.Fits τ) : Orderly τ .empty b.start := by
  obtain ⟨hitems, htable, hjobs⟩ := b.start_items
  have hsocks : b.start.sel.fds b.socksFd = some ⟨opRead, .socksListener, 0⟩ := by
    rw [hitems, Function.update_of_ne b.fds_ne, Function.update_self]
  have hmng : b.start.sel.fds b.mngFd = some ⟨opRead, .mngListener, 0⟩ := by
    rw [hitems, Function.update_self]
  have hitem : ∀ fd it, b.start.sel.fds fd = some it →
      fd = b.socksFd ∧ it = ⟨opRead, .socksListener, 0⟩ ∨
      fd = b.mngFd ∧ it = ⟨opRead, .mngListener, 0⟩ := by
    intro fd it hit
    by_cases hm : fd = b.mngFd
    · subst hm
      exact Or.inr ⟨rfl, Option.some.inj (hit.symm.trans hmng)⟩
    · by_cases hs : fd = b.socksFd
      · subst hs
        exact Or.inl ⟨rfl, Option.some.inj (hit.symm.trans hsocks)⟩
      · rw [hitems, Function.update_of_ne hm, Function.update_of_ne hs] at hit
        cases hit
  have hplain : ∀ fd it, b.start.sel.fds fd = some it → it.handler ≠ .socks5 ∧ it.handler ≠ .mng := by
    intro fd it hit
    rcases hitem fd it hit with ⟨-, rfl⟩ | ⟨-, rfl⟩ <;> exact ⟨by simp, by simp⟩
  have hcore : Core τ .empty b.start := {
    books := {
      nodup := List.nodup_nil
      allocated := fun p => ⟨fun h => (by cases h), fun h => (by cases h)⟩
      linked := rfl
      active := rfl
      chain := rfl
      pool := rfl
      poolMax := Nat.zero_le _
      admins := rfl }
    registry := {
      table := htable
      socks5 := fun fd it hit hh => absurd hh (hplain fd it hit).1
      mng := fun fd it hit hh => absurd hh (hplain fd it hit).2
      listening := fun fd it hit _ => by
        rcases hitem fd it hit with ⟨rfl, rfl⟩ | ⟨rfl, rfl⟩
        · exact ⟨rfl, fun _ => rfl, fun hh => by cases hh⟩
        · exact ⟨rfl, fun hh => (by cases hh), fun _ => rfl⟩
      socksFd := fun fd hfd => ⟨_, Option.some.inj hfd ▸ hsocks, rfl⟩
      mngFd := fun fd hfd => ⟨_, Option.some.inj hfd ▸ hmng, rfl⟩ }
    held := by
      refine ⟨fun fd k hk => ?_, fun fd hin => ?_, rfl, Or.inl rfl⟩
      · by_cases hopen : fd = b.socksFd ∨ fd = b.mngFd ∨ b.others fd = true
        · rcases hopen with rfl | rfl | ho
          · exact Or.inr ⟨_, hsocks⟩
          · exact Or.inr ⟨_, hmng⟩
          · exact Or.inl (hf.inherited ▸ ho)
        · rw [show b.start.os.fds fd = none from if_neg hopen] at hk
          cases hk
      · rw [hf.inherited] at hin
        refine ⟨⟨{ conn := .established }, if_pos (Or.inr (Or.inr hin))⟩, ?_⟩
        cases hit : b.start.sel.fds fd with
        | none => rfl
        | some it =>
          rcases hitem fd it hit with ⟨rfl, -⟩ | ⟨rfl, -⟩
          · rw [b.socksFd_free] at hin; cases hin
          · rw [b.mngFd_free] at hin; cases hin
    own := fun p hp => (by cases hp)
    jobs := by
      refine ⟨fun j hj => (by cases hj), fun fd hfd => ?_, fun p hp => (by cases hp),
        fun _ p hp => (by cases hp)⟩
      rw [hjobs] at hfd
      cases hfd
    ledgers := by
      refine ⟨⟨⟨[], none, [], []⟩, rfl, ⟨⟨rfl, ?_, fun h hh => (by cases hh)⟩,
        fun p hp => (by cases hp), fun p hp => (by cases hp)⟩⟩,
        metricsCreate, [], rfl, rfl, ⟨⟨rfl, rfl, rfl, rfl, rfl⟩, rfl, rfl, ⟨?_, fun h hh => ?_⟩⟩⟩
      · exact List.Perm.refl []
      · exact List.Perm.refl []
      · cases hh
    ended := fun e he => (by cases he)
    admins := fun m hm => (by cases hm)
    names := by
      obtain ⟨u, hu, hwf, hplain⟩ := b.stocked
      exact ⟨u, hu, hwf, hplain.trans hf.tidy.symm⟩
    secret := hf.secret.symm
    left := fun s hs => (by cases hs) }
  exact ⟨⟨hcore, fun p hp => (by cases hp)⟩, fun p hp => (by cases hp),
    fun _ i n hw => (by cases hw)⟩

end Socks5d
