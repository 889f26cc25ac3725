import Socks5d.Obeying
import Socks5d.UserTable
import Socks5d.Numerals

/-! # What a line can change

Three responses tell of a change to the user store or to the configuration. A
line that is answered by one of them made that change; any other line made none. -/
namespace Socks5d
open Ctx Mng Lib.CString Lib.Words Lib.Slots

/-- The responses that tell of a change. -/
def changes : List Bytes := [lit "+OK user set\n", lit "+OK user deleted\n", lit "+OK config set\n"]

/-- From `c` to `c'` nothing shared changed, and no change was told of. -/
structure Quiet (c c' : MCtx) : Prop where
  g : c'.g = c.g
  out : c'.s.out ∉ changes

section Quiet
variable {c c' : MCtx} {fd : Fd} {cursor : Bytes} {q : Request}

theorem quiet_reply {text : Bytes} (hg : c'.g = c.g)
    (ht : text.length < mngWriteSize ∧ text ∉ changes) : Quiet c (queueResponse fd text c') := by
  refine ⟨hg, ?_⟩
  rw [queueResponse_out text ht.1]
  exact ht.2

theorem fitting_changes {text : Bytes} (h : text ∉ changes) : Request.fitting text ∉ changes := by
  unfold Request.fitting
  split
  · decide +kernel
  · exact h

/-- `USER` with words it is not made for. -/
theorem handleUser_quiet (h : settingOf (lit "USER") (words isspace cursor) = none) :
    Quiet c (handleUser fd cursor c) := by
  obtain ⟨r1, h1, w1⟩ := nextToken_spec cursor
  obtain ⟨r2, h2, w2⟩ := nextToken_spec r1
  obtain ⟨r3, h3, w3⟩ := nextToken_spec r2
  obtain ⟨r4, h4, -⟩ := nextToken_spec r3
  rw [w1] at h2 w2
  rw [w2] at h3 w3
  rw [w3] at h4
  unfold handleUser
  simp only [h1, h2, h3, h4]
  generalize words isspace cursor = ws at h
  cases c.g.users with
  | none => exact quiet_reply rfl (by decide +kernel)
  | some u =>
    rcases ws with _ | ⟨a, ws⟩
    · exact quiet_reply rfl (by decide +kernel)
    · dsimp only [List.head?_cons, List.tail_cons]
      by_cases hset : a = lit "SET"
      · rw [if_pos hset]
        rcases ws with _ | ⟨name, _ | ⟨pass, _ | ⟨extra, ws⟩⟩⟩
        · exact quiet_reply rfl (by decide +kernel)
        · exact quiet_reply rfl (by decide +kernel)
        · rw [settingOf, if_pos ⟨rfl, hset⟩] at h
          cases h
        · exact quiet_reply rfl (by decide +kernel)
      · rw [if_neg hset]
        by_cases hdel : a = lit "DELETE"
        · rw [if_pos hdel]
          rcases ws with _ | ⟨name, _ | ⟨extra, ws⟩⟩
          · exact quiet_reply rfl (by decide +kernel)
          · rw [settingOf, if_pos ⟨rfl, hdel⟩] at h
            cases h
          · exact quiet_reply rfl (by decide +kernel)
        · rw [if_neg hdel]
          exact quiet_reply rfl (by decide +kernel)

/-- `CONFIG` with words it is not made for. -/
theorem handleConfig_quiet (h : settingOf (lit "CONFIG") (words isspace cursor) = none) :
    Quiet c (handleConfig fd cursor c) := by
  have hne : lit "CONFIG" ≠ lit "USER" := by decide +kernel
  obtain ⟨r1, h1, w1⟩ := nextToken_spec cursor
  obtain ⟨r2, h2, w2⟩ := nextToken_spec r1
  obtain ⟨r3, h3, w3⟩ := nextToken_spec r2
  obtain ⟨r4, h4, -⟩ := nextToken_spec r3
  rw [w1] at h2 w2
  rw [w2] at h3 w3
  rw [w3] at h4
  unfold handleConfig
  simp only [h1, h2, h3, h4]
  generalize words isspace cursor = ws at h
  cases c.g.config with
  | none => exact quiet_reply rfl (by decide +kernel)
  | some cfg =>
    rcases ws with _ | ⟨a, ws⟩
    · exact quiet_reply rfl (by decide +kernel)
    · dsimp only [List.head?_cons, List.tail_cons]
      by_cases hget : a = lit "GET"
      · rw [if_pos hget]
        rcases ws with _ | ⟨extra, ws⟩
        · rw [settingOf, if_pos ⟨rfl, hget⟩] at h
          cases h
        · exact quiet_reply rfl (by decide +kernel)
      · rw [if_neg hget]
        by_cases hset : a = lit "SET"
        · rw [if_pos hset]
          rcases ws with _ | ⟨keyName, _ | ⟨value, _ | ⟨extra, ws⟩⟩⟩
          · exact quiet_reply rfl (by decide +kernel)
          · exact quiet_reply rfl (by decide +kernel)
          · rw [settingOf, if_neg fun hu => hne hu.1, if_pos ⟨rfl, hset⟩] at h
            cases h
          · exact quiet_reply rfl (by decide +kernel)
        · rw [if_neg hset]
          exact quiet_reply rfl (by decide +kernel)

theorem handleAuth_quiet : Quiet c (handleAuth fd cursor c) := by
  refine ⟨handleAuth_g cursor, ?_⟩
  have hreply : ∀ {text : Bytes} (c' : MCtx), text.length < mngWriteSize ∧ text ∉ changes →
      (queueResponse fd text c').s.out ∉ changes := by
    intro text c' ht
    rw [queueResponse_out text ht.1]
    exact ht.2
  unfold handleAuth
  simp only
  split
  · split
    · exact hreply c (by decide +kernel)
    · split
      · exact hreply c (by decide +kernel)
      · split
        · exact hreply _ (by decide +kernel)
        · split <;> exact hreply _ (by decide +kernel)
  · exact hreply c (by decide +kernel)

/-- A line is carried out as the request it is taken for, or changes nothing. -/
theorem handleLine_cases (line : Bytes) :
    (∃ q, understood line = some q ∧ Carried q c (handleLine fd line c)) ∨
      Quiet c (handleLine fd line c) := by
  by_cases hauth : c.s.authenticated = true ∧ c.s.locked = false
  · cases hu : understood line with
    | some q => exact Or.inl ⟨q, rfl, handleLine_carried hu hauth.1 hauth.2⟩
    | none =>
      right
      have hra := @requireAuth_granted fd _ hauth.1 hauth.2
      obtain ⟨cursor, htoken, hargs⟩ := nextToken_line line
      unfold understood at hu
      unfold handleLine
      rw [htoken]
      generalize words isspace (cstr line) = ws at hu htoken hargs ⊢
      rcases ws with _ | ⟨cmd, args⟩
      · exact quiet_reply rfl (by decide +kernel)
      · simp only [List.head?_cons, List.tail_cons] at hargs ⊢
        simp only [hra]
        split
        · exact handleAuth_quiet
        · split
          · split <;> exact quiet_reply rfl (by decide +kernel)
          · dsimp only at hu
            split at hu
            · cases hu
            · next hstats =>
              rw [if_neg hstats]
              split at hu
              · cases hu
              · next husers =>
                rw [if_neg husers]
                split
                · next he => exact handleUser_quiet (by rw [hargs, ← he]; exact hu)
                · split
                  · next he => exact handleConfig_quiet (by rw [hargs, ← he]; exact hu)
                  · exact quiet_reply rfl (by decide +kernel)
  · right
    have hra : ∃ text, requireAuth fd c = (queueResponse fd text c, false) ∧
        text.length < mngWriteSize ∧ text ∉ changes := by
      unfold requireAuth
      cases hl : c.s.locked with
      | true => exact ⟨_, rfl, by decide +kernel⟩
      | false =>
        cases ha : c.s.authenticated with
        | true => exact absurd ⟨ha, hl⟩ hauth
        | false => exact ⟨_, rfl, by decide +kernel⟩
    obtain ⟨text, hra, htext⟩ := hra
    unfold handleLine
    obtain ⟨cmd, cursor⟩ := nextToken (trimRight (cstr line))
    cases cmd with
    | none => exact quiet_reply rfl (by decide +kernel)
    | some cmd =>
      simp only [hra]
      split
      · exact handleAuth_quiet
      · split
        · split <;> exact quiet_reply rfl (by decide +kernel)
        · exact quiet_reply rfl htext

end Quiet

/-! ## What the responses tell -/

/-- A text with another beginning. -/
theorem append_changes {start : Bytes} (h : ∀ x ∈ changes, x.take start.length ≠ start)
    (rest : Bytes) : start ++ rest ∉ changes := by
  intro hmem
  exact h _ hmem List.take_left

theorem statsText_changes (m : Metrics) : statsText m ∉ changes := by
  unfold statsText
  simp only [List.append_assoc]
  exact append_changes (by decide +kernel) _

theorem usersText_changes (u : Users) : usersText u ++ [10] ∉ changes := by
  unfold usersText
  rw [List.append_assoc]
  exact append_changes (by decide +kernel) _

theorem configText_changes (cfg : Config) : configText cfg ∉ changes := by
  unfold configText
  simp only [List.append_assoc]
  exact append_changes (by decide +kernel) _

/-- What a line did, by what it was answered. -/
structure Effects (line : Bytes) (c c' : MCtx) : Prop where
  none : c'.s.out ∉ changes → c'.g.users = c.g.users ∧ c'.g.config = c.g.config
  /-- The entry of that name is there no more; the others are. -/
  deleted : c'.s.out = lit "+OK user deleted\n" → ∃ name u u', understood line = some (.userDelete name) ∧
    c.g.users = some u ∧ c'.g.users = some u' ∧ c'.g.config = c.g.config ∧
      ∃ before pass after, u.table = before ++ (name, pass) :: after ∧ name ∉ keys before ∧
        u'.table.Perm (before ++ after)
  /-- The entry of that name has the password, or there is one more. -/
  set : c'.s.out = lit "+OK user set\n" → ∃ name pass u u',
    understood line = some (.userSet name pass) ∧ c.g.users = some u ∧ c'.g.users = some u' ∧
      c'.g.config = c.g.config ∧
        ((∃ i, slot u.table name = some i ∧ u'.table = revalue u.table i (stored pass)) ∨
          name ∉ keys u.table ∧ u'.table = u.table ++ [(stored name, stored pass)])
  /-- The value of the key is the number that was given; the others are as before. -/
  configured : c'.s.out = lit "+OK config set\n" → ∃ (k : ConfigKey) (value : Bytes) (n : Nat)
    (cfg cfg' : Config), understood line = some (.configSet k.name value) ∧
      (Uint value n ∨ SignedUint value n) ∧ c.g.config = some cfg ∧ c'.g.config = some cfg' ∧
        k.get cfg' = n ∧ (∀ k', k' ≠ k → k'.get cfg' = k'.get cfg) ∧ c'.g.users = c.g.users

section Effects
variable {line : Bytes} {c c' : MCtx}

/-- Nothing shared has changed, and no change was told of. -/
theorem Effects.unchanged (hu : c'.g.users = c.g.users) (hc : c'.g.config = c.g.config)
    (ho : c'.s.out ∉ changes) : Effects line c c' := by
  have hno : ∀ {x : Bytes}, x ∈ changes → c'.s.out ≠ x := by
    intro x hx he
    exact ho (he ▸ hx)
  exact ⟨fun _ => ⟨hu, hc⟩, fun he => absurd he (hno (by decide +kernel)),
    fun he => absurd he (hno (by decide +kernel)), fun he => absurd he (hno (by decide +kernel))⟩

theorem cstr_arguments {q : Request} (h : understood line = some q) : ∀ a ∈ q.arguments, cstr a = a := by
  intro a ha
  refine cstr_eq_self fun h0 => ?_
  have hword : ∃ w ∈ words isspace (cstr line), (0 : UInt8) ∈ w := by
    unfold understood at h
    generalize words isspace (cstr line) = ws at h ⊢
    cases ws with
    | nil => cases h
    | cons cmd args =>
      dsimp only at h
      split at h
      · cases h; cases ha
      · split at h
        · cases h; cases ha
        · exact ⟨a, List.mem_cons_of_mem _ (settingOf_arguments h a ha), h0⟩
  obtain ⟨w, hw, h0⟩ := hword
  exact zero_notMem_cstr line (mem_of_mem_splitOnP (List.mem_of_mem_filter hw) h0)

theorem configSetKey_some {cfg cfg' : Config} {keyName : Bytes} {n : Int}
    (h : configSetKey cfg keyName n = some cfg') : ∃ k : ConfigKey, keyName = k.name ∧ cfg' = k.set cfg n := by
  unfold configSetKey at h
  split at h
  · cases h
  · obtain ⟨k, hk, rfl⟩ := Option.map_eq_some_iff.mp h
    have hname := List.find?_some hk
    exact ⟨k, (of_decide_eq_true hname).symm, rfl⟩

theorem sought_found {u : Users} (h : u.Wf) {name : Bytes} {i : Nat} (hname : cstr name = name)
    (hs : slot u.table (sought name) = some i) : sought name = name := by
  obtain ⟨a, w, b, ht, -, -⟩ := slot_split hs
  have hin : sought name ∈ keys u.table :=
    Lib.Slots.mem_keys.mpr ⟨w, ht ▸ List.mem_append_right a List.mem_cons_self⟩
  rw [sought_fits (fits_of_sought (h.mem_keys hin).2), hname]

/-- The responses that tell of a change are three. -/
theorem changes_differ : lit "+OK user set\n" ≠ lit "+OK user deleted\n" ∧
    lit "+OK user set\n" ≠ lit "+OK config set\n" ∧
    lit "+OK user deleted\n" ≠ lit "+OK config set\n" := by decide +kernel

theorem changes_all : lit "+OK user set\n" ∈ changes ∧ lit "+OK user deleted\n" ∈ changes ∧
    lit "+OK config set\n" ∈ changes := by decide +kernel

theorem effects_userSet {name pass : Bytes} (hq : understood line = some (.userSet name pass))
    (h : Carried (.userSet name pass) c c') (hwf : ∀ u, c.g.users = some u → u.Wf) :
    Effects line c c' := by
  unfold Carried Request.outcome at h
  cases hus : c.g.users with
  | none =>
    simp only [hus, Prod.mk.injEq] at h
    obtain ⟨hu, hc, ho⟩ := h
    exact .unchanged (hu.trans hus.symm) hc (by rw [ho]; decide +kernel)
  | some u =>
    simp only [hus, Prod.mk.injEq] at h
    obtain ⟨hu, hc, ho⟩ := h
    have hw := hwf u hus
    have hname : cstr name = name := cstr_arguments hq name List.mem_cons_self
    have hset : (u.usersAdd name pass).2 = true →
        ((∃ i, slot u.table name = some i ∧
          (u.usersAdd name pass).1.table = revalue u.table i (stored pass)) ∨
          name ∉ keys u.table ∧
            (u.usersAdd name pass).1.table = u.table ++ [(stored name, stored pass)]) →
        Effects line c c' := by
      intro hok hwhat
      rw [if_pos hok] at ho
      refine ⟨fun hno => absurd (ho ▸ changes_all.1) hno, fun he => ?_, fun _ => ?_, fun he => ?_⟩
      · exact absurd (ho.symm.trans he) changes_differ.1
      · exact ⟨name, pass, u, _, hq, hus, hu, hc, hwhat⟩
      · exact absurd (ho.symm.trans he) changes_differ.2.1
    cases hs : slot u.table (sought name) with
    | some i =>
      obtain ⟨hok, ht⟩ := hw.add_found pass hs
      exact hset hok (Or.inl ⟨i, sought_found hw hname hs ▸ hs, ht⟩)
    | none =>
      have hout : name ∉ keys u.table := by
        intro hin
        have hfits : Fits name := by
          obtain ⟨-, hlen⟩ := hw.mem_keys hin
          rwa [Fits, hname]
        rw [sought_fits hfits, hname] at hs
        exact slot_none.mp hs hin
      by_cases hroom : u.count < usersMax
      · obtain ⟨hok, ht⟩ := hw.add_fresh pass hs hroom
        exact hset hok (Or.inr ⟨hout, ht⟩)
      · have hfull := hw.add_full pass hs (Nat.le_antisymm hw.room (Nat.not_lt.mp hroom))
        rw [hfull] at hu ho
        rw [if_neg Bool.false_ne_true] at ho
        exact .unchanged (hu.trans hus.symm) hc (by rw [ho]; decide +kernel)

theorem effects_userDelete {name : Bytes} (hq : understood line = some (.userDelete name))
    (h : Carried (.userDelete name) c c') (hwf : ∀ u, c.g.users = some u → u.Wf) :
    Effects line c c' := by
  unfold Carried Request.outcome at h
  cases hus : c.g.users with
  | none =>
    simp only [hus, Prod.mk.injEq] at h
    obtain ⟨hu, hc, ho⟩ := h
    exact .unchanged (hu.trans hus.symm) hc (by rw [ho]; decide +kernel)
  | some u =>
    simp only [hus, Prod.mk.injEq] at h
    obtain ⟨hu, hc, ho⟩ := h
    have hw := hwf u hus
    have hname : cstr name = name := cstr_arguments hq name List.mem_cons_self
    cases hs : slot u.table (sought name) with
    | some i =>
      obtain ⟨hok, ht⟩ := hw.del_found hs
      rw [if_pos hok] at ho
      obtain ⟨before, pass, after, hsplit, hbefore, hp⟩ := vacate_split hs
      rw [sought_found hw hname hs] at hsplit hbefore
      refine ⟨fun hno => absurd (ho ▸ changes_all.2.1) hno, fun _ => ?_, fun he => ?_, fun he => ?_⟩
      · exact ⟨name, u, _, hq, hus, hu, hc, before, pass, after, hsplit, hbefore, ht ▸ hp⟩
      · exact absurd (he.symm.trans ho) changes_differ.1
      · exact absurd (ho.symm.trans he) changes_differ.2.2
    | none =>
      rw [hw.del_missing hs] at hu ho
      rw [if_neg Bool.false_ne_true] at ho
      exact .unchanged (hu.trans hus.symm) hc (by rw [ho]; decide +kernel)

theorem effects_configSet {keyName value : Bytes}
    (hq : understood line = some (.configSet keyName value))
    (h : Carried (.configSet keyName value) c c') : Effects line c c' := by
  unfold Carried Request.outcome at h
  cases hcfg : c.g.config with
  | none =>
    simp only [hcfg, Prod.mk.injEq] at h
    obtain ⟨hu, hc, ho⟩ := h
    exact .unchanged hu (hc.trans hcfg.symm) (by rw [ho]; decide +kernel)
  | some cfg =>
    cases hv : parseNonnegative value with
    | none =>
      simp only [hcfg, hv, Prod.mk.injEq] at h
      obtain ⟨hu, hc, ho⟩ := h
      exact .unchanged hu (hc.trans hcfg.symm) (by rw [ho]; decide +kernel)
    | some n =>
      cases hk : configSetKey cfg keyName n with
      | none =>
        simp only [hcfg, hv, hk, Prod.mk.injEq] at h
        obtain ⟨hu, hc, ho⟩ := h
        exact .unchanged hu (hc.trans hcfg.symm) (by rw [ho]; decide +kernel)
      | some cfg' =>
        simp only [hcfg, hv, hk, Prod.mk.injEq] at h
        obtain ⟨hu, hc, ho⟩ := h
        obtain ⟨k, rfl, rfl⟩ := configSetKey_some hk
        refine ⟨fun hno => absurd (ho ▸ changes_all.2.2) hno, fun he => ?_, fun he => ?_, fun _ => ?_⟩
        · exact absurd (he.symm.trans ho) changes_differ.2.2
        · exact absurd (he.symm.trans ho) changes_differ.2.1
        · have hword : IsWord isspace value :=
            understood_arguments hq value (List.mem_cons_of_mem _ List.mem_cons_self)
          obtain ⟨n, rfl, hn⟩ := (parseNonnegative_iff hword).mp hv
          refine ⟨k, value, n, cfg, _, hq, hn, hcfg, hc, ?_, fun k' hne => ?_, hu⟩
          · rw [ConfigKey.get_set, if_pos rfl]
          · rw [ConfigKey.get_set, if_neg hne]

/-- A request that only reads. -/
theorem effects_reading {text : Bytes} (ht : text ∉ changes)
    (h : (c'.g.users, c'.g.config, c'.s.out) = (c.g.users, c.g.config, text)) : Effects line c c' := by
  simp only [Prod.mk.injEq] at h
  obtain ⟨hu, hc, ho⟩ := h
  exact .unchanged hu hc (ho ▸ ht)

theorem Carried.effects {q : Request} (hq : understood line = some q) (h : Carried q c c')
    (hwf : ∀ u, c.g.users = some u → u.Wf) : Effects line c c' := by
  cases q with
  | userSet name pass => exact effects_userSet hq h hwf
  | userDelete name => exact effects_userDelete hq h hwf
  | configSet keyName value => exact effects_configSet hq h
  | stats =>
    refine effects_reading ?_ h
    cases c.g.metrics with
    | none =>
      rw [Option.map_none, Option.getD_none]
      decide +kernel
    | some m =>
      rw [Option.map_some, Option.getD_some]
      exact fitting_changes (statsText_changes m)
  | users =>
    refine effects_reading ?_ h
    cases c.g.users with
    | none => decide +kernel
    | some u =>
      dsimp only
      split
      · decide +kernel
      · exact fitting_changes (usersText_changes u)
  | configGet =>
    refine effects_reading ?_ h
    cases c.g.config with
    | none =>
      rw [Option.map_none, Option.getD_none]
      decide +kernel
    | some cfg =>
      rw [Option.map_some, Option.getD_some]
      exact fitting_changes (configText_changes cfg)

end Effects

/-! ## Other sessions -/

section Others
variable {fd : Fd} {c : MCtx} {cursor : Bytes}

theorem selectorSetInterest_self (c : MCtx) {i : Interest} :
    (c.selectorSetInterest fd i).1.self = c.self := rfl

@[simp] theorem queueResponse_self (text : Bytes) : (queueResponse fd text c).self = c.self := rfl

theorem handleAuth_self : (handleAuth fd cursor c).self = c.self := by
  unfold handleAuth
  simp only
  split
  · split
    · rfl
    · split
      · rfl
      · split
        · rfl
        · split <;> rfl
  · rfl

theorem handleStats_self : (handleStats fd c).self = c.self := by
  unfold handleStats
  split <;> exact queueResponse_self _

theorem handleUsers_self : (handleUsers fd c).self = c.self := by
  unfold handleUsers
  split
  · exact queueResponse_self _
  · split
    · exact queueResponse_self _
    · split
      · exact queueResponse_self _
      · exact selectorSetInterest_self (c.modify _)

theorem handleUser_self : (handleUser fd cursor c).self = c.self := by
  unfold handleUser
  simp only
  split
  · rfl
  · split
    · rfl
    · split
      · split <;> rfl
      · split
        · split <;> rfl
        · rfl

theorem handleConfig_self : (handleConfig fd cursor c).self = c.self := by
  unfold handleConfig handleConfigGet
  simp only
  split
  · rfl
  · split
    · rfl
    · split
      · split
        · rfl
        · split <;> exact queueResponse_self _
      · split
        · split
          · split
            · rfl
            · split <;> rfl
          · rfl
        · rfl

theorem requireAuth_self : (requireAuth fd c).1.self = c.self := by
  unfold requireAuth
  split
  · rfl
  · split <;> rfl

/-- A line is handled in the memory of its own session. -/
theorem handleLine_self (line : Bytes) : (handleLine fd line c).self = c.self := by
  unfold handleLine
  obtain ⟨cmd, cursor⟩ := nextToken (trimRight (cstr line))
  cases cmd with
  | none => rfl
  | some cmd =>
    have hreq := @requireAuth_self fd c
    simp only
    split
    · exact handleAuth_self
    · split
      · split <;> rfl
      · generalize requireAuth fd c = r at hreq ⊢
        obtain ⟨c1, ok⟩ := r
        cases ok with
        | false => exact hreq
        | true =>
          simp only
          split
          · exact handleStats_self.trans hreq
          · split
            · exact handleUsers_self.trans hreq
            · split
              · exact handleUser_self.trans hreq
              · split
                · exact handleConfig_self.trans hreq
                · exact hreq

end Others

/-- A line changes the user store and the configuration as it is answered, and no
session but the one it came in on. -/
theorem lines_change_as_answered (w : World) (m : Ptr) (fd : Fd) (line : Bytes)
    (hwf : ∀ u, w.g.users = some u → u.Wf) :
    Effects line (w.mngCtx m) (handleLine fd line (w.mngCtx m)) ∧
      ∀ m', m' ≠ m → (w.runMng m (handleLine fd line)).mngMem m' = w.mngMem m' := by
  refine ⟨?_, fun m' hne => ?_⟩
  · rcases @handleLine_cases (w.mngCtx m) fd line with ⟨q, hq, hc⟩ | hquiet
    · exact hc.effects hq hwf
    · exact .unchanged (congrArg Globals.users hquiet.g) (congrArg Globals.config hquiet.g) hquiet.out
  · have hself : (handleLine fd line (w.mngCtx m)).self = m := handleLine_self line
    unfold World.runMng
    dsimp only
    split <;> exact mngPut_other hself hne

theorem lines_change_as_answered_set :
    let w := Boot.guarded.start.run Input.entrance
    let c := handleLine 2 (lit "USER SET ana x") (w.mngCtx 0)
    c.s.out = lit "+OK user set\n" ∧ Effects (lit "USER SET ana x") (w.mngCtx 0) c := by
  have hwf : ∀ u, (Boot.guarded.start.run Input.entrance).g.users = some u → u.Wf := by
    intro u hu
    have hfirst : (Boot.guarded.start.run Input.entrance).g.users = some usersCreate := by
      decide +kernel
    rw [← Option.some.inj (hfirst.symm.trans hu)]
    exact Users.wf_create
  exact ⟨by decide +kernel,
    (lines_change_as_answered (Boot.guarded.start.run Input.entrance) 0 2 _ hwf).1⟩

end Socks5d
