import Socks5d.Sweeping

/-! # One turn of the walk

`handle_iteration` looks at the descriptors one by one, with a snapshot of what
was ready before the first of them was served. `Heard` says that the marks of
the snapshot that are still ahead are about the sockets that are there now. -/
namespace Socks5d
open Ctx Lib.Links View

/-! ## What the kernel has reported stays reported -/

section Move
variable {strict : Prop} {v v' : View}

/-- The session opens no origin any more. -/
def View.Beyond (v : View) : Prop :=
  v.st = some .requestWrite ∨ v.st = some .copy ∨ v.st = some .done ∨ v.st = some .error ∨
    v.st = some .connecting ∧ v.originFd = none ∧ v.ci = opWrite

theorem Move.client_reported (h : Move strict v v') (hr : v.cl.reported = true) :
    v'.cl.reported = true := by
  cases h with
  | relayReceived d | relayEof d | relayUnread d | relaySent d | relayUnsent d | relayShut d =>
    cases d <;> exact hr
  | reported a b =>
    show (v.cl.reported || a) = true
    rw [hr]
    rfl
  | _ => exact hr

theorem View.Beyond.of_st {st : SocksState} (hst : v.st = some st)
    (h : st = .requestWrite ∨ st = .copy ∨ st = .done ∨ st = .error) : v.Beyond := by
  rcases h with rfl | rfl | rfl | rfl
  · exact Or.inl hst
  · exact Or.inr (Or.inl hst)
  · exact Or.inr (Or.inr (Or.inl hst))
  · exact Or.inr (Or.inr (Or.inr (Or.inl hst)))

/-- What is known of such a session in a given state. -/
theorem View.Beyond.in_st {st : SocksState} (hv : v.Beyond) (hst : v.st = some st) :
    (st = .requestWrite ∨ st = .copy ∨ st = .done ∨ st = .error) ∨
      st = .connecting ∧ v.originFd = none ∧ v.ci = opWrite := by
  rcases hv with h | h | h | h | ⟨h, ho, hi⟩ <;> cases Option.some.inj (hst.symm.trans h)
  · exact Or.inl (Or.inl rfl)
  · exact Or.inl (Or.inr (Or.inl rfl))
  · exact Or.inl (Or.inr (Or.inr (Or.inl rfl)))
  · exact Or.inl (Or.inr (Or.inr (Or.inr rfl)))
  · exact Or.inr ⟨rfl, ho, hi⟩

theorem Move.beyond (h : Move strict v v') (hv : v.Beyond) :
    v'.Beyond ∧ v'.originFd = v.originFd ∧
      (v.originFd ≠ none → v.og.reported = true → v'.og.reported = true) := by
  -- the state is not one of the negotiation
  have hno : ∀ {st : SocksState} {P : Prop}, v.st = some st →
      st ≠ .connecting ∧ st ≠ .requestWrite ∧ st ≠ .copy ∧ st ≠ .done ∧ st ≠ .error → P := by
    intro st P hst hne
    rcases hv.in_st hst with (h | h | h | h) | ⟨h, -⟩
    · exact absurd h hne.2.1
    · exact absurd h hne.2.2.1
    · exact absurd h hne.2.2.2.1
    · exact absurd h hne.2.2.2.2
    · exact absurd h hne.1
  have hconn : v.st = some .connecting → v.originFd = none ∧ v.ci = opWrite := by
    intro hst
    rcases hv.in_st hst with (h | h | h | h) | ⟨-, h⟩
    · cases h
    · cases h
    · cases h
    · cases h
    · exact h
  have hcopy : v'.st = some .copy → v'.originFd = v.originFd →
      (v.og.reported = true → v'.og.reported = true) →
      v'.Beyond ∧ v'.originFd = v.originFd ∧
        (v.originFd ≠ none → v.og.reported = true → v'.og.reported = true) := fun h1 h2 h3 =>
    ⟨.of_st h1 (by simp), h2, fun _ => h3⟩
  cases h with
  | start t hst => rcases hv with h | h | h | h | ⟨h, -⟩ <;> rw [hst] at h <;> cases h
  | received bs hst hr h1 h2 h3 =>
    rename_i st
    refine hno hst ?_
    revert hr
    cases st <;> decide
  | recvLost t hst hr => exact ⟨.of_st rfl (by simp), rfl, fun _ h => h⟩
  | sendLost t hst hr => exact ⟨.of_st rfl (by simp), rfl, fun _ h => h⟩
  | sent n hst hr hn =>
    rename_i st
    refine ⟨?_, rfl, fun _ h => h⟩
    rcases hv.in_st hst with h | ⟨h, ho, hi⟩
    · exact .of_st hst h
    · exact Or.inr (Or.inr (Or.inr (Or.inr ⟨h ▸ hst, ho, hi⟩)))
  | helloMore p hst | helloBad p rest t hst | helloDone us p rest t hst | helloRefused t hst
  | helloToAuth stale t hst | helloToRequest stale t hst | authMore p hst | authBad p rest t hst
  | authDone us p rest t hst | authRefused t hst | authToRequest stale t hst | requestMore p hst
  | requestBad p rest t hst | requestRefused p rest r t hst | requestUnsubmitted p rest t hst
  | requestSubmitted p rest k t hst | requestLiteral p rest t hst | resolved found hst
  | dnsFailed t hst | dnsFound t hst => exact hno hst (by decide)
  | attemptFailed a rest e ha | attemptUnregistered a rest ha | attemptOpened a rest fd k ha =>
    obtain ⟨hst, -, hi, -⟩ := ha
    rw [(hconn hst).2] at hi
    cases hi
  | exhausted a e hst ho hi =>
    rw [(hconn hst).2] at hi
    cases hi
  | gaveUp t hst ho hi => exact ⟨.of_st rfl (by simp), rfl, fun _ h => h⟩
  | connected fd t hst ho | originFailed fd e hst ho | originGaveUp fd e t hst ho =>
    rw [(hconn hst).1] at ho
    cases ho
  | connectTimedOut t hst =>
    have ho := (hconn hst).1
    exact ⟨Or.inr (Or.inr (Or.inr (Or.inr ⟨hst, rfl, rfl⟩))), ho.symm, fun hne => absurd ho hne⟩
  | requestRefusalSent t hst => exact ⟨.of_st rfl (by simp), rfl, fun _ h => h⟩
  | relayStarted t hst => exact ⟨.of_st rfl (by simp), rfl, fun _ h => h⟩
  | relayReceived d bs t hst | relayEof d t hst | relayUnread d l t hst | relaySent d n f hst
  | relayUnsent d l f hst | relayShut d s hst => cases d <;> exact hcopy hst rfl id
  | relayUnshut d t hst => exact ⟨.of_st rfl (by simp), rfl, fun _ h => h⟩
  | relaySynced r₁ r₂ hst => exact hcopy hst rfl id
  | relayDone t hst | relayBroken d t hst => exact ⟨.of_st rfl (by simp), rfl, fun _ h => h⟩
  | reported a b hb =>
    refine ⟨hv, rfl, fun _ h => ?_⟩
    show (v.og.reported || b) = true
    rw [h]
    rfl
  | settled conn err => exact ⟨hv, rfl, fun _ h => h⟩

theorem Moves.client_reported (h : Moves strict v v') (hr : v.cl.reported = true) :
    v'.cl.reported = true := by
  induction h with
  | refl => exact hr
  | tail _ hm ih => exact hm.client_reported ih

theorem Moves.beyond (h : Moves strict v v') (hv : v.Beyond) :
    v'.Beyond ∧ v'.originFd = v.originFd ∧
      (v.originFd ≠ none → v.og.reported = true → v'.og.reported = true) := by
  induction h with
  | refl => exact ⟨hv, rfl, fun _ h => h⟩
  | tail _ hm ih =>
    obtain ⟨h1, h2, h3⟩ := ih
    obtain ⟨h4, h5, h6⟩ := hm.beyond h1
    exact ⟨h4, h5.trans h2, fun hne hr => h6 (h2 ▸ hne) (h3 hne hr)⟩

end Move

/-- A session that is woken by its client after the request. -/
theorem View.Sane.beyond {v : View} (hs : v.Sane) (ha : v.Asked ∨ v.originFd ≠ none)
    (hi : v.ci.read = true ∨ v.ci.write = true) : v.Beyond := by
  have hnoop : v.ci ≠ opNoop := by
    intro he
    rw [he] at hi
    rcases hi with h | h <;> cases h
  -- the states in which no origin has been asked for
  have hno : ∀ st, v.st = some st → st.asked = false → v.originFd = none → v.Beyond := by
    intro st hst hst' ho
    rcases ha with ⟨s, h1, h2⟩ | h1
    · rw [Option.some.inj (hst.symm.trans h1), h2] at hst'
      cases hst'
    · exact absurd ho h1
  cases hst : v.st with
  | none =>
    rw [Sane, hst] at hs
    rcases ha with ⟨s, h1, -⟩ | h1
    · rw [hst] at h1; cases h1
    · exact absurd hs.1.origin h1
  | some st =>
    rw [Sane, hst] at hs
    cases st with
    | helloRead | helloWrite | authRead | authWrite | requestRead => exact hno _ hst rfl hs.1.origin
    | requestResolv => exact absurd hs.2.2.1 hnoop
    | connecting =>
      obtain ⟨-, -, -, h1, h2⟩ := hs
      by_cases ho : v.originFd = none
      · exact Or.inr (Or.inr (Or.inr (Or.inr ⟨hst, ho, (h1 ho).resolve_left hnoop⟩)))
      · exact absurd (h2 ho).1 hnoop
    | requestWrite | copy | done | error => exact .of_st hst (by simp)

/-- A session that has not come to its request has no origin. -/
theorem View.Sane.unasked {v : View} (hs : v.Sane) (hn : ¬v.Asked) : v.originFd = none := by
  cases hst : v.st with
  | none =>
    rw [Sane, hst] at hs
    exact hs.1.origin
  | some st =>
    rw [Sane, hst] at hs
    cases st with
    | helloRead | helloWrite | authRead | authWrite | requestRead => exact hs.1.origin
    | requestResolv | connecting | requestWrite | copy | done | error =>
      exact absurd ⟨_, hst, rfl⟩ hn

/-! ## The marks ahead -/

/-- The sockets from `i` on that are marked writable have been reported to be. -/
def World.Heard (w : World) (i : Fd) : Prop :=
  ∀ fd, i ≤ fd → w.sel.slaveW fd = true → ∀ k, w.os.fds fd = some k → k.reported = true

/-- The next socket to be opened would find a mark waiting for it. -/
def World.Trap (w : World) (i : Fd) : Prop :=
  ∃ j, i < j ∧ w.sel.slaveW j = true ∧ w.os.fds j = none ∧ ∀ g < j, w.os.fds g ≠ none

section Marks
variable {τ : Terms} {ρ : Roster} {w : World} {p : Ptr} {i : Fd}

/-- The descriptor is watched for the session. -/
def Watched (c : SCtx) (i : Fd) : Prop :=
  i = c.s.clientFd ∧ (c.view.ci.read = true ∨ c.view.ci.write = true) ∨
    c.s.originFd = some i ∧ (c.view.oi.read = true ∨ c.view.oi.write = true)

/-- A callback at `i` opens no socket that a mark ahead is waiting for. -/
theorem served_heard {r : SCtx × SocksState} (h : Sound τ.strict (w.ctx p))
    (hi : Watched (w.ctx p) i) (hs : Served τ.strict (w.ctx p) r) (hh : w.Heard (i + 1))
    (ht : ¬(w.ctx p).view.Asked → ¬w.Trap i) :
    ∀ fd, i < fd → w.sel.slaveW fd = true → ∀ k, r.1.os.fds fd = some k → k.reported = true := by
  intro fd hlt hm k hk
  have hframe := hs.good.frame
  have hbefore : ∀ k, w.os.fds fd = some k → k.reported = true := hh fd hlt hm
  by_cases hcl : fd = (w.ctx p).s.clientFd
  · -- the client's connection
    obtain ⟨k0, hk0⟩ := h.own.client.2
    have hv : (w.ctx p).view.cl = k0 := by
      unfold Ctx.view
      rw [hk0]
      rfl
    have hv' : r.1.view.cl = k := by
      unfold Ctx.view
      rw [hframe.clientFd, ← hcl, hk]
      rfl
    rw [← hv']
    refine hs.moves.client_reported ?_
    rw [hv]
    exact hbefore k0 (hcl ▸ hk0)
  by_cases hor' : r.1.s.originFd = some fd
  · have hv' : r.1.view.og = k := by
      unfold Ctx.view
      rw [hor', Option.bind_some, hk]
      rfl
    rcases hframe.fresh fd hor' with hor | ⟨hfree, hlow⟩
    · -- the origin it had
      have hne : i ≠ fd := Nat.ne_of_lt hlt
      have hci : (w.ctx p).view.ci.read = true ∨ (w.ctx p).view.ci.write = true := by
        rcases hi with ⟨-, hci⟩ | ⟨ho, -⟩
        · exact hci
        · exact absurd (Option.some.inj (ho.symm.trans hor)) hne
      have hvo : (w.ctx p).view.originFd ≠ none := by
        show (w.ctx p).s.originFd ≠ none
        rw [hor]
        simp
      obtain ⟨-, -, h3⟩ := hs.moves.beyond (h.reached.sane.beyond (Or.inr hvo) hci)
      obtain ⟨k0, hk0⟩ := (h.own.origin fd hor).2
      have hv : (w.ctx p).view.og = k0 := by
        unfold Ctx.view
        rw [hor, Option.bind_some, hk0]
        rfl
      rw [← hv']
      exact h3 hvo (by rw [hv]; exact hbefore k0 hk0)
    · -- a new one: only a session that reads its request comes to that
      have htrap : w.Trap i := ⟨fd, hlt, hm, hfree, fun g hg => (hlow g hg).1⟩
      have hasked : (w.ctx p).view.Asked := by
        by_contra hn
        exact ht hn htrap
      rcases hi with ⟨-, hci⟩ | ⟨ho, -⟩
      · obtain ⟨-, h2, -⟩ := hs.moves.beyond (h.reached.sane.beyond (Or.inl hasked) hci)
        have h2 : r.1.s.originFd = (w.ctx p).s.originFd := h2
        obtain ⟨k0, hk0⟩ := (h.own.origin fd (h2.symm.trans hor')).2
        rw [hfree] at hk0
        cases hk0
      · exact absurd ho (hlow i hlt).2
  by_cases hor : (w.ctx p).s.originFd = some fd
  · rw [(hframe.dropped fd hor hor').1] at hk
    cases hk
  · rw [(hframe.foreign fd hcl hor hor').1] at hk
    exact hbefore k hk

theorem runSocks_marks (w : World) (p : Ptr) (callback : SCtx → SCtx × SocksState) :
    (∀ fd k, (w.runSocks p callback).os.fds fd = some k →
      (callback (w.ctx p)).1.os.fds fd = some k) ∧
    (w.runSocks p callback).sel.slaveW = (callback (w.ctx p)).1.sel.slaveW := by
  have hc : ∀ c : SCtx, (World.checkAsserts c).os.fds = c.os.fds ∧ (World.checkAsserts c).sel = c.sel := by
    intro c
    unfold World.checkAsserts
    split <;> exact ⟨rfl, rfl⟩
  obtain ⟨h1, h2⟩ := hc (callback (w.ctx p)).1
  unfold World.runSocks
  dsimp only
  split
  · obtain ⟨h3, h4⟩ := socksv5Done_marks (w.put (World.checkAsserts (callback (w.ctx p)).1)) p
    refine ⟨fun fd k hk => ?_, h4.trans (congrArg Selector.slaveW h2)⟩
    rw [← h1]
    exact h3 fd k hk
  · refine ⟨fun fd k hk => ?_, congrArg Selector.slaveW h2⟩
    rw [← h1]
    exact hk

/-- After a callback at `i`, the marks ahead are still about the sockets they were for. -/
theorem runSocks_heard {callback : SCtx → SCtx × SocksState} (h : Sound τ.strict (w.ctx p))
    (hi : Watched (w.ctx p) i) (hs : Served τ.strict (w.ctx p) (callback (w.ctx p)))
    (hh : w.Heard (i + 1)) (ht : ¬(w.ctx p).view.Asked → ¬w.Trap i) :
    (w.runSocks p callback).Heard (i + 1) := by
  obtain ⟨h1, h2⟩ := runSocks_marks w p callback
  intro fd hle hm k hk
  have hsame : (callback (w.ctx p)).1.sel.slaveW = w.sel.slaveW :=
    congrArg (fun t => t.2.1) hs.good.frame.sel
  rw [h2, hsame] at hm
  exact served_heard h hi hs hh ht fd hle hm k (h1 fd k hk)

/-- A session's item, as its view shows it. -/
theorem item_watched (h : Registry ρ w) {it : Item} (hit : w.sel.fds i = some it)
    (hh : it.handler = .socks5) :
    i = (w.ctx it.data).s.clientFd ∧ (w.ctx it.data).view.ci = it.interest ∨
      (w.ctx it.data).s.originFd = some i ∧ (w.ctx it.data).view.oi = it.interest := by
  rcases (h.socks5 i it hit hh).2 with he | he
  · refine Or.inl ⟨he, ?_⟩
    show ((w.sel.fds (w.mem it.data).clientFd).map Item.interest).getD opNoop = _
    rw [← he, hit]
    rfl
  · refine Or.inr ⟨he, ?_⟩
    show (((w.mem it.data).originFd.bind w.sel.fds).map Item.interest).getD opNoop = _
    rw [he, Option.bind_some, hit]
    rfl

/-- The item that is at `i` after a callback of the object it belonged to is still its. -/
theorem Stepped.owner {w' : World} {ρ' : Roster} {it now : Item} (h0 : Core τ ρ w)
    (h : Stepped τ (· = it.data) 0 ρ ρ' w w') (hit : w.sel.fds i = some it)
    (hh : it.handler = .socks5 ∨ it.handler = .mng) (hnow : w'.sel.fds i = some now)
    (hw : now.interest.write = true) : now.handler = it.handler ∧ now.data = it.data := by
  obtain ⟨hact, hadm⟩ := h.kin rfl
  have hreg := h.inv.registry
  -- an object left alone has the items it had
  have hkept : now = it → now.handler = it.handler ∧ now.data = it.data := fun he =>
    he ▸ ⟨rfl, rfl⟩
  have hlistener : now.handler = .socksListener ∨ now.handler = .mngListener →
      now.handler = it.handler ∧ now.data = it.data := fun hl => by
    rw [(hreg.listening i now hnow hl).interest] at hw
    cases hw
  cases hn : now.handler with
  | socksListener => exact hn ▸ hlistener (Or.inl hn)
  | mngListener => exact hn ▸ hlistener (Or.inr hn)
  | socks5 =>
    obtain ⟨hq, hfd⟩ := hreg.socks5 i now hnow hn
    have hq0 := hact.subset hq
    by_cases hp : now.data = it.data
    · rcases hh with hh | hh
      · exact ⟨hh.symm, hp⟩
      · have hm := (h0.registry.mng i it hit hh).1
        rw [hp] at hq0
        exact absurd rfl (h0.books.session_ne hq0 hm)
    · have hk := (h.beside.sessions _ hq0 hp).2
      rw [hk.clientFd, hk.originFd] at hfd
      have h1 := (hk.fds i hfd).2
      rw [hnow, hit] at h1
      exact hn ▸ hkept (Option.some.inj h1)
  | mng =>
    obtain ⟨hq, hfd⟩ := hreg.mng i now hnow hn
    have hq0 := hadm.subset hq
    by_cases hp : now.data = it.data
    · rcases hh with hh | hh
      · have hm := (h0.registry.socks5 i it hit hh).1
        rw [hp] at hq0
        exact absurd rfl (h0.books.session_ne hm hq0)
      · exact ⟨hh.symm, hp⟩
    · have hk := (h.beside.admins _ hq0 hp).2
      rw [hk.mem] at hfd
      have h1 := hk.item
      rw [hfd, hnow, hit] at h1
      exact hn ▸ hkept (Option.some.inj h1)

/-! ## The handlers of a session -/

/-- What is assumed of the walk at `i`: no session that is still negotiating is
served there while a mark ahead waits for the next socket. -/
def World.Clear (w : World) (i : Fd) : Prop :=
  ∀ it, w.sel.fds i = some it → it.handler = .socks5 →
    (w.sel.slaveR i = true ∧ it.interest.read = true ∨
      w.sel.slaveW i = true ∧ it.interest.write = true) →
    ¬(w.ctx it.data).view.Asked → ¬w.Trap i

/-- What the write handler relies on besides. -/
structure Writable (strict : Prop) (w : World) (p : Ptr) (i : Fd) : Prop where
  heard : strict → w.Heard (i + 1)
  clear : strict → ¬(w.ctx p).view.Asked → ¬w.Trap i
  reported : strict → (w.ctx p).s.originFd = some i → (w.ctx p).s.stm = some .connecting →
    (w.ctx p).view.og.reported = true

theorem Inv.socksWrite (h : Inv τ ρ w) (hc : AllCalm ρ w) {it : Item} (hit : w.sel.fds i = some it)
    (hh : it.handler = .socks5) (hw : it.interest.write = true)
    (hr : Writable τ.strict w it.data i) :
    ∃ ρ', Stepped τ (· = it.data) 0 ρ ρ' w (w.handleWrite it i) ∧
      (τ.strict → (w.handleWrite it i).Heard (i + 1)) := by
  have hp := (h.registry.socks5 i it hit hh).1
  have hwatch := item_watched h.registry hit hh
  have hs : Served τ.strict (w.ctx it.data) (socksv5Write i (w.ctx it.data)) := by
    refine socksv5Write_served ((h.sound hp).live (hc _ hp)) ?_ hr.reported
    exact hwatch.imp (fun he => ⟨he.1, by rw [he.2]; exact hw⟩)
      fun he => ⟨he.1, by rw [he.2]; exact hw⟩
  have he : w.handleWrite it i = w.runSocks it.data (socksv5Write i) := by
    unfold World.handleWrite
    rw [hh]
  rw [he]
  obtain ⟨ρ', h1, -⟩ := h.runSocks hc hp hs
  refine ⟨ρ', h1, fun hstrict => ?_⟩
  refine runSocks_heard (h.sound hp) ?_ hs (hr.heard hstrict) (hr.clear hstrict)
  exact hwatch.imp (fun he => ⟨he.1, Or.inr (by rw [he.2]; exact hw)⟩)
    fun he => ⟨he.1, Or.inr (by rw [he.2]; exact hw)⟩

theorem Inv.socksRead (h : Inv τ ρ w) (hc : AllCalm ρ w) {it : Item} (hit : w.sel.fds i = some it)
    (hh : it.handler = .socks5) (hr : it.interest.read = true)
    (hheard : τ.strict → w.Heard (i + 1))
    (hclear : τ.strict → ¬(w.ctx it.data).view.Asked → ¬w.Trap i) :
    ∃ ρ', Stepped τ (· = it.data) 0 ρ ρ' w (w.handleRead it i) ∧
      (τ.strict → (w.handleRead it i).Heard (i + 1)) ∧
      (it.data ∈ ρ'.act → Writable τ.strict (w.handleRead it i) it.data i) := by
  have hp := (h.registry.socks5 i it hit hh).1
  have hwatch := item_watched h.registry hit hh
  have hs : Served τ.strict (w.ctx it.data) (socksv5Read i (w.ctx it.data)) := by
    refine socksv5Read_served ((h.sound hp).live (hc _ hp)) ?_
    exact hwatch.imp (fun he => ⟨he.1, by rw [he.2]; exact hr⟩)
      fun he => ⟨he.1, by rw [he.2]; exact hr⟩
  have he : w.handleRead it i = w.runSocks it.data (socksv5Read i) := by
    unfold World.handleRead
    rw [hh]
  rw [he]
  obtain ⟨ρ', h1, hself⟩ := h.runSocks hc hp hs
  have hheard' : τ.strict → (w.runSocks it.data (socksv5Read i)).Heard (i + 1) := fun hstrict => by
    refine runSocks_heard (h.sound hp) ?_ hs (hheard hstrict) (hclear hstrict)
    exact hwatch.imp (fun he => ⟨he.1, Or.inl (by rw [he.2]; exact hr)⟩)
      fun he => ⟨he.1, Or.inl (by rw [he.2]; exact hr)⟩
  refine ⟨ρ', h1, hheard', fun hp' => ⟨hheard', fun hstrict hna htrap => ?_, fun _ hor hst => ?_⟩⟩
  · -- as long as it negotiates it opens and closes nothing
    have hna0 : ¬(w.ctx it.data).view.Asked := fun ha => hna (by
      rw [hself hp']
      exact hs.moves.asked ha)
    have hnone := (h.sound hp).reached.sane.unasked hna0
    have hnone' := (h1.inv.sound hp').reached.sane.unasked hna
    have hframe := hs.good.frame
    have hos : (w.runSocks it.data (socksv5Read i)).os = (socksv5Read i (w.ctx it.data)).1.os :=
      congrArg Ctx.os (hself hp')
    have hopen : ∀ fd, (w.runSocks it.data (socksv5Read i)).os.fds fd = none ↔
        w.os.fds fd = none := by
      intro fd
      rw [hself hp'] at hnone'
      by_cases hcl : fd = (w.ctx it.data).s.clientFd
      · obtain ⟨k, hk⟩ := (h.own _ hp).client.2
        obtain ⟨k', hk'⟩ := hs.good.own.client.2
        rw [hframe.clientFd, ← hcl, ← hos] at hk'
        have hk : w.os.fds fd = some k := hcl ▸ hk
        rw [hk, hk']
        simp
      · have ho : (w.ctx it.data).s.originFd ≠ some fd := fun he => by
          have hn : (w.ctx it.data).s.originFd = none := hnone
          rw [hn] at he
          cases he
        have ho' : (socksv5Read i (w.ctx it.data)).1.s.originFd ≠ some fd := fun he => by
          have hn : (socksv5Read i (w.ctx it.data)).1.s.originFd = none := hnone'
          rw [hn] at he
          cases he
        rw [hos, (hframe.foreign fd hcl ho ho').1]
        rfl
    obtain ⟨j, hlt, hm, hfree, hlow⟩ := htrap
    refine hclear hstrict hna0 ⟨j, hlt, ?_, (hopen j).mp hfree, fun g hg hn =>
      hlow g hg ((hopen g).mpr hn)⟩
    have hslave : (w.runSocks it.data (socksv5Read i)).sel.slaveW = w.sel.slaveW :=
      (runSocks_marks _ _ _).2.trans (congrArg (fun t => t.2.1) hframe.sel)
    rw [← hslave]
    exact hm
  · rcases hwatch with ⟨hcl, -⟩ | ⟨ho, hoi⟩
    · -- the client's descriptor is not the origin's
      have hne := (h1.inv.own _ hp').here.origin_ne
      have hcl' : ((w.runSocks it.data (socksv5Read i)).ctx it.data).s.clientFd = i := by
        rw [hself hp', hs.good.frame.clientFd]
        exact hcl.symm
      rw [hcl'] at hne
      exact absurd hor hne
    · -- an origin that is watched for reading is relayed
      have hcopy : (w.ctx it.data).view.st = some .copy := by
        have hsane := (h.sound hp).reached.sane
        have hread : (w.ctx it.data).view.oi.read = true := by rw [hoi]; exact hr
        cases hst0 : (w.ctx it.data).s.stm with
        | none =>
          rw [Sane, show (w.ctx it.data).view.st = none from hst0] at hsane
          exact absurd (hsane.1.origin.symm.trans ho) (by simp)
        | some st =>
          rcases origin_states hsane hst0 (fun he => (hc _ hp).notDone (he ▸ hst0))
            (fun he => (hc _ hp).notError (he ▸ hst0)) ho with ⟨-, h2⟩ | ⟨-, h2⟩ | rfl
          · rw [h2] at hread; cases hread
          · rw [h2] at hread; cases hread
          · exact hst0
      obtain ⟨hb, -, -⟩ := hs.moves.beyond (.of_st hcopy (by simp))
      rw [hself hp'] at hor hst
      rcases hb.in_st hst with (he | he | he | he) | ⟨-, hn, -⟩
      · cases he
      · cases he
      · cases he
      · cases he
      · have hn : (socksv5Read i (w.ctx it.data)).1.s.originFd = none := hn
        rw [hn] at hor
        cases hor

/-! ## The handlers of a management session -/

theorem mngServed_marks {m : Ptr} {c : MCtx} (h : Mng.Served τ.tidy τ.secret (w.mngCtx m) c) :
    (∀ fd, fd ≠ (w.mngMem m).fd → c.os.fds fd = w.os.fds fd) ∧ c.sel.slaveW = w.sel.slaveW := by
  obtain ⟨c1, h1, hcase⟩ := h
  have hf := h1.good.frame
  have hslave : c1.sel.slaveW = w.sel.slaveW := congrArg (fun t => t.2.1) hf.sel
  rcases hcase with ⟨rfl, -⟩ | rfl
  · exact ⟨fun fd hfd => (hf.foreign fd hfd).1, hslave⟩
  · obtain ⟨k, hk⟩ := h1.good.own.sock
    rw [Mng.unregister_eq h1.good.own hk]
    refine ⟨fun fd hfd => ?_, hslave⟩
    have hne : fd ≠ c1.s.fd := by rw [hf.fd]; exact hfd
    show ((c1.os.close c1.s.fd).free c1.self).fds fd = _
    rw [free_fds]
    exact (Function.update_of_ne hne _ _).trans (hf.foreign fd hfd).1

theorem runMng_marks (w : World) (m : Ptr) (callback : MCtx → MCtx) :
    (w.runMng m callback).os = (callback (w.mngCtx m)).os ∧
      (w.runMng m callback).sel = (callback (w.mngCtx m)).sel := by
  unfold World.runMng
  dsimp only
  split <;> exact ⟨rfl, rfl⟩

theorem Inv.mngCallback (h : Inv τ ρ w) (hc : AllCalm ρ w) {it : Item} (hit : w.sel.fds i = some it)
    (hh : it.handler = .mng) {callback : MCtx → MCtx}
    (hs : Mng.Served τ.tidy τ.secret (w.mngCtx it.data) (callback (w.mngCtx it.data)))
    (hheard : τ.strict → w.Heard (i + 1)) :
    ∃ ρ', Stepped τ (· = it.data) 0 ρ ρ' w (w.runMng it.data callback) ∧
      (τ.strict → (w.runMng it.data callback).Heard (i + 1)) := by
  obtain ⟨hm, hfd⟩ := h.registry.mng i it hit hh
  obtain ⟨ρ', h1⟩ := h.runMng hc hm hs
  refine ⟨ρ', h1, fun hstrict fd hle hmark k hk => ?_⟩
  obtain ⟨h2, h3⟩ := mngServed_marks hs
  obtain ⟨h4, h5⟩ := runMng_marks w it.data callback
  rw [h5, h3] at hmark
  rw [h4, h2 fd (by rw [hfd]; exact Nat.ne_of_gt hle)] at hk
  exact hheard hstrict fd hle hmark k hk

/-! ## One descriptor -/

/-- The objects whose handlers run when `i` is looked at. -/
def World.OnDuty (w : World) (i : Fd) (q : Ptr) : Prop :=
  ∃ it, w.sel.fds i = some it ∧ (it.handler = .socks5 ∨ it.handler = .mng) ∧ it.data = q

theorem World.Heard.mono {j : Fd} (h : w.Heard i) (hij : i ≤ j) : w.Heard j :=
  fun fd hle => h fd (Nat.le_trans hij hle)

theorem World.Heard.admits {w' : World} (h : w.Heard i) (ha : Admits w w') : w'.Heard i := by
  intro fd hle hm k hk
  rw [ha.marks] at hm
  rcases ha.fds fd k hk with hk | hr
  · exact h fd hle hm k hk
  · exact hr

/-- What the walk does at `i` once the read handler has run. -/
def World.writeTurn (w : World) (it : Item) (i : Fd) : World :=
  match w.sel.fds i with
  | none => w
  | some now =>
    if w.sel.slaveW i && now.interest.write then w.handleWrite { now with data := it.data } i
    else w

theorem dispatch_eq {it : Item} (hit : w.sel.fds i = some it) :
    w.dispatch i =
      (if w.sel.slaveR i && it.interest.read then w.handleRead it i else w).writeTurn it i := by
  unfold World.dispatch
  rw [hit]
  rfl

/-- A listener is not watched for writing. -/
theorem listener_turn {it : Item} (hit : w.sel.fds i = some it) (hi : it.interest = opRead) :
    w.writeTurn it i = w := by
  unfold World.writeTurn
  rw [hit]
  simp only [hi, opRead, Bool.and_false, Bool.false_eq_true, if_false]

/-- The write handler of a session, if it is to run. -/
theorem Inv.writeTurn (h : Inv τ ρ w) (hc : AllCalm ρ w) {it : Item}
    (hheard : τ.strict → w.Heard (i + 1))
    (hnow : ∀ now, w.sel.fds i = some now → now.interest.write = true → now.handler = it.handler ∧
      now.data = it.data)
    (hh : it.handler = .socks5 ∨ it.handler = .mng)
    (hw : it.data ∈ ρ.act → w.sel.slaveW i = true →
      (∀ now, w.sel.fds i = some now → now.interest.write = true →
        Writable τ.strict w it.data i)) :
    ∃ ρ', Stepped τ (· = it.data) 0 ρ ρ' w (w.writeTurn it i) ∧
      (τ.strict → (w.writeTurn it i).Heard (i + 1)) := by
  unfold World.writeTurn
  cases hit : w.sel.fds i with
  | none => exact ⟨ρ, .refl h hc, hheard⟩
  | some now =>
    dsimp only
    split
    · next hgo =>
      obtain ⟨hslave, hwrite⟩ := Bool.and_eq_true_iff.mp hgo
      obtain ⟨h1, h2⟩ := hnow now hit hwrite
      have he : ({ now with data := it.data } : Item) = now := by rw [← h2]
      rw [he, ← h2]
      rcases hh with hh | hh
      · have hp := (h.registry.socks5 i now hit (h1.trans hh)).1
        exact h.socksWrite hc hit (h1.trans hh) hwrite
          (h2 ▸ hw (h2 ▸ hp) hslave now hit hwrite)
      · obtain ⟨hm, hfd⟩ := h.registry.mng i now hit (h1.trans hh)
        have hrun : w.handleWrite now i = w.runMng now.data (Mng.mngWrite i) := by
          unfold World.handleWrite
          rw [h1, hh]
        rw [hrun]
        exact h.mngCallback hc hit (h1.trans hh)
          (Mng.mngWrite_served (h.toCore.conversing hm) hfd.symm (h.admins _ hm).waiting) hheard
    · exact ⟨ρ, .refl h hc, hheard⟩

/-- `handle_iteration` at the descriptor of a session. -/
theorem Inv.sessionDispatch (h : Inv τ ρ w) (hc : AllCalm ρ w) {it : Item}
    (hit : w.sel.fds i = some it) (hh : it.handler = .socks5 ∨ it.handler = .mng)
    (hheard : τ.strict → w.Heard i) (hclear : τ.strict → w.Clear i) :
    ∃ ρ', Stepped τ (· = it.data) 0 ρ ρ' w (w.dispatch i) ∧
      (τ.strict → (w.dispatch i).Heard (i + 1)) := by
  have hheard' : τ.strict → w.Heard (i + 1) := fun hs => (hheard hs).mono (Nat.le_succ i)
  rw [dispatch_eq hit]
  by_cases hgo : (w.sel.slaveR i && it.interest.read) = true
  · rw [if_pos hgo]
    obtain ⟨hslave, hread⟩ := Bool.and_eq_true_iff.mp hgo
    obtain ⟨ρ₁, h1, hh1, hw1⟩ : ∃ ρ₁, Stepped τ (· = it.data) 0 ρ ρ₁ w (w.handleRead it i) ∧
        (τ.strict → (w.handleRead it i).Heard (i + 1)) ∧
        (it.handler = .socks5 → it.data ∈ ρ₁.act →
          Writable τ.strict (w.handleRead it i) it.data i) := by
      rcases hh with hh | hh
      · obtain ⟨ρ₁, h1, h2, h3⟩ := h.socksRead hc hit hh hread hheard'
          fun hs hna => hclear hs it hit hh (Or.inl ⟨hslave, hread⟩) hna
        exact ⟨ρ₁, h1, h2, fun _ => h3⟩
      · obtain ⟨hm, hfd⟩ := h.registry.mng i it hit hh
        have hrun : w.handleRead it i = w.runMng it.data (Mng.mngRead i) := by
          unfold World.handleRead
          rw [hh]
        rw [hrun]
        obtain ⟨ρ₁, h1, h2⟩ := h.mngCallback hc hit hh
          (Mng.mngRead_served (h.toCore.conversing hm) hfd.symm (h.admins _ hm).waiting) hheard'
        exact ⟨ρ₁, h1, h2, fun he => by rw [hh] at he; cases he⟩
    obtain ⟨ρ₂, h2, hh2⟩ := h1.inv.writeTurn h1.calm hh1
      (fun now hnow hw => h1.owner h.toCore hit hh hnow hw) hh
      fun hp _ now hnow hw => hw1 (by
        rcases hh with hh | hh
        · exact hh
        · have hm := (h.registry.mng i it hit hh).1
          exact absurd rfl (h.books.session_ne ((h1.kin rfl).1.subset hp) hm)) hp
    exact ⟨ρ₂, h1.trans h2, hh2⟩
  · rw [if_neg hgo]
    refine h.writeTurn hc hheard' (fun now hnow _ => ?_) hh fun hp hslave now hnow hw => ?_
    · rw [hit] at hnow
      cases hnow
      exact ⟨rfl, rfl⟩
    · rw [hit] at hnow
      cases hnow
      have hs : it.handler = .socks5 := by
        rcases hh with hh | hh
        · exact hh
        · exact absurd rfl (h.books.session_ne hp (h.registry.mng i it hit hh).1)
      refine ⟨hheard', fun hst hna => hclear hst it hit hs (Or.inr ⟨hslave, hw⟩) hna,
        fun hst hor _ => ?_⟩
      obtain ⟨k, hk⟩ := ((h.own _ hp).origin i hor).2
      have hv : (w.ctx it.data).view.og = k := by
        unfold Ctx.view
        rw [hor, Option.bind_some, hk]
        rfl
      rw [hv]
      exact hheard hst i (Nat.le_refl i) hslave k hk

/-- `handle_iteration` at `i`. -/
theorem Inv.dispatch (h : Inv τ ρ w) (hc : AllCalm ρ w) (i : Fd) (hheard : τ.strict → w.Heard i)
    (hclear : τ.strict → w.Clear i) :
    ∃ ρ' n, Stepped τ (w.OnDuty i) n ρ ρ' w (w.dispatch i) ∧
      (n = 0 ∨ n = 1 ∧ (ρ'.act = ρ.act ∨ w.connectionsFull = false)) ∧
      (τ.strict → (w.dispatch i).Heard (i + 1)) := by
  have hheard' : τ.strict → w.Heard (i + 1) := fun hs => (hheard hs).mono (Nat.le_succ i)
  cases hit : w.sel.fds i with
  | none =>
    have he : w.dispatch i = w := by
      unfold World.dispatch
      rw [hit]
    rw [he]
    exact ⟨ρ, 0, .refl h hc, Or.inl rfl, hheard'⟩
  | some it =>
    have hsession : it.handler = .socks5 ∨ it.handler = .mng →
        ∃ ρ' n, Stepped τ (w.OnDuty i) n ρ ρ' w (w.dispatch i) ∧
          (n = 0 ∨ n = 1 ∧ (ρ'.act = ρ.act ∨ w.connectionsFull = false)) ∧
          (τ.strict → (w.dispatch i).Heard (i + 1)) := fun hh => by
      obtain ⟨ρ', h1, h2⟩ := h.sessionDispatch hc hit hh hheard hclear
      exact ⟨ρ', 0, h1.mono fun q hq => ⟨it, hit, hh, hq.symm⟩, Or.inl rfl, h2⟩
    cases hh : it.handler with
    | socks5 => exact hsession (Or.inl hh)
    | mng => exact hsession (Or.inr hh)
    | socksListener =>
      have hi := (h.registry.listening i it hit (Or.inl hh)).interest
      obtain ⟨ρ', n, h1, h2, ha⟩ := h.passiveAccept hc
      have he : w.handleRead it i = w.socksv5PassiveAccept := by
        unfold World.handleRead
        rw [hh]
      rw [dispatch_eq hit, he]
      split
      · rw [listener_turn (ha.items i it hit) hi]
        exact ⟨ρ', n, h1.mono fun q hq => hq.elim, h2.imp_right fun h3 => ⟨h3.1, Or.inr h3.2⟩,
          fun hs => (hheard' hs).admits ha⟩
      · rw [listener_turn hit hi]
        exact ⟨ρ, 0, .refl h hc, Or.inl rfl, hheard'⟩
    | mngListener =>
      have hi := (h.registry.listening i it hit (Or.inr hh)).interest
      obtain ⟨ρ', h1, h2, ha⟩ := h.mngPassiveAccept hc
      have he : w.handleRead it i = w.mngPassiveAccept := by
        unfold World.handleRead
        rw [hh]
      rw [dispatch_eq hit, he]
      split
      · rw [listener_turn (ha.items i it hit) hi]
        exact ⟨ρ', 1, h1.mono fun q hq => hq.elim, Or.inr ⟨rfl, Or.inl h2⟩,
          fun hs => (hheard' hs).admits ha⟩
      · rw [listener_turn hit hi]
        exact ⟨ρ, 0, .refl h hc, Or.inl rfl, hheard'⟩

end Marks
end Socks5d
