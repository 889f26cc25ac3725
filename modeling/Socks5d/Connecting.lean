import Socks5d.Negotiation

/-! # Connecting refines its abstract machine

Sockets opened for an origin, registered, tried one after the other, and
dropped: CONNECTING keeps its session in good order. -/
namespace Socks5d
open Buffer Ctx View
variable {strict : Prop}

/-! ## DNS jobs in flight -/

namespace View

/-- A session has one DNS job in flight in REQUEST_RESOLV, and none elsewhere. -/
def Ledger (v : View) : Prop :=
  submissions v.hist = consumptions v.hist + if v.st = some .requestResolv then 1 else 0

theorem Ledger.of_eq {v v' : View} (h : v.Ledger) (hh : v'.hist = v.hist) (hs : v'.st = v.st) :
    v'.Ledger := by
  unfold Ledger; rw [hh, hs]; exact h

end View

/-- Every move keeps the ledger of DNS jobs. -/
theorem Move.ledger {v v' : View} (h : Move strict v v') (hl : v.Ledger) : v'.Ledger := by
  cases h with
  | received | sent | helloMore | authMore | requestMore | resolved | exhausted | reported
  | settled | relaySynced => exact hl.of_eq rfl rfl
  | @recvLost st t hst hr | @sendLost st t hst hr =>
    have hne : st ≠ .requestResolv := by rintro rfl; cases hr
    simpa [Ledger, hst, hne] using hl
  | attemptFailed a rest e hat | attemptUnregistered a rest hat =>
    simpa [Ledger, hat.1] using hl
  | attemptOpened a rest fd k hat => simpa [Ledger, hat.1] using hl
  | start t hst | helloBad p rest t hst | helloDone us p rest t hst | helloRefused t hst
  | helloToAuth stale t hst | helloToRequest stale t hst | authBad p rest t hst
  | authDone us p rest t hst | authRefused t hst | authToRequest stale t hst
  | requestBad p rest t hst | requestRefused p rest r t hst | requestUnsubmitted p rest t hst
  | requestSubmitted p rest k t hst | requestLiteral p rest t hst | dnsFailed t hst
  | dnsFound t hst | gaveUp t hst | connected fd t hst | originFailed fd e hst
  | originGaveUp fd e t hst | connectTimedOut t hst | requestRefusalSent t hst
  | relayStarted t hst | relayReceived d bs t hst | relayEof d t hst | relayUnread d lost t hst
  | relaySent d n fl hst | relayUnsent d lost fl hst | relayShut d shut hst
  | relayUnshut d t hst | relayDone t hst | relayBroken d t hst =>
    simpa [Ledger, hst] using hl

/-! ## Opening a socket -/

/-- The lowest free number. -/
def LowestFree (c : SCtx) (fd : Fd) : Prop :=
  c.os.fds fd = none ∧ ∀ g < fd, c.os.fds g ≠ none

/-- A new descriptor is the lowest free one. -/
theorem newFd_cases (o : OS) (k : Sock) :
    (∃ o' e, o.newFd k = (o', .error e) ∧ Called o o') ∨
    (∃ o' fd, o.newFd k = (o', .ok fd) ∧ o.fds fd = none ∧ (∀ g < fd, o.fds g ≠ none) ∧
      Touched o o' fd k ∧ o'.killed = o.killed) := by
  unfold OS.newFd
  cases o.answer.err with
  | some e => exact Or.inl ⟨_, e, rfl, rfl, rfl, rfl⟩
  | none =>
    cases hl : o.lowestFree with
    | none => exact Or.inl ⟨_, .EMFILE, rfl, rfl, rfl, rfl⟩
    | some fd =>
      have hf := List.find?_range_eq_some.mp hl
      simp only [Option.isNone_iff_eq_none, Bool.not_eq_true', Option.isNone_eq_false_iff] at hf
      refine Or.inr ⟨_, fd, rfl, hf.1, fun g hg => ?_, ⟨rfl, rfl, Or.inl rfl⟩, rfl⟩
      exact Option.isSome_iff_ne_none.mp (hf.2.2 g hg)

theorem connect_cases {o : OS} {fd : Fd} {k : Sock} (hk : o.fds fd = some k) :
    (∃ o' e, o.connect fd = (o', .error e) ∧ Called o o') ∨
    (∃ o', o.connect fd = (o', .ok ()) ∧
      Touched o o' fd { k with conn := .established, reported := true }) := by
  unfold OS.connect
  have ht : o.tick.fds fd = some k := hk
  cases o.answer.err with
  | some e => exact Or.inl ⟨_, e, rfl, rfl, rfl, rfl⟩
  | none => exact Or.inr ⟨_, rfl, by rw [modifySock_fds ht]; rfl, rfl, Or.inl rfl⟩

/-- `close` on a descriptor that is open. -/
theorem still_close {o : OS} {fd : Fd} {k : Sock} (h : o.fds fd = some k) :
    (o.close fd).still = o.still := by
  simp [OS.close, OS.still, OS.setFd, h]

/-- A socket that was opened and closed again leaves nothing behind. -/
theorem Touched.close {o o' : OS} {fd : Fd} {k : Sock} (h : Touched o o' fd k)
    (hf : o.fds fd = none) (hk : o'.killed = o.killed) : Called o (o'.close fd) := by
  refine ⟨?_, ?_, hk⟩
  · show Function.update o'.fds fd none = o.fds
    rw [h.fds, Function.update_idem, ← hf, Function.update_eq_self]
  · have hopen : o'.fds fd = some k := by rw [h.fds, Function.update_self]
    rw [still_close hopen, h.still]

theorem Touched.called {a b c : OS} {fd : Fd} {k : Sock} (h₁ : Touched a b fd k)
    (h₂ : Called b c) : Touched a c fd k :=
  ⟨h₂.fds.trans h₁.fds, h₂.still.trans h₁.still, h₁.lives.trans h₁.still (Or.inl h₂.killed)⟩

theorem Touched.trans {a b c : OS} {fd : Fd} {k k' : Sock} (h₁ : Touched a b fd k)
    (h₂ : Touched b c fd k') : Touched a c fd k' where
  fds := by rw [h₂.fds, h₁.fds, Function.update_idem]
  still := h₂.still.trans h₁.still
  lives := h₁.lives.trans h₁.still h₂.lives

/-- The two conditions a socket can be in when its connect was accepted. -/
def Opening (k : Sock) : Prop :=
  k = { conn := .inProgress } ∨ k = { conn := .established, reported := true }

theorem tryOne_cases (c : SCtx) :
    (∃ os' e, connectingTryOne c = ({ c with os := os' }, .error e) ∧ Called c.os os') ∨
    (∃ os' fd k, connectingTryOne c =
        (({ c with os := os' } : SCtx).modify fun s => { s with originFd := some fd }, .ok ()) ∧
      LowestFree c fd ∧ Touched c.os os' fd k ∧ os'.killed = c.os.killed ∧ Opening k) := by
  unfold connectingTryOne
  rw [show c.os.socket = c.os.newFd { conn := .inProgress } from rfl]
  rcases newFd_cases c.os { conn := .inProgress } with
    ⟨o1, e, h1, hc⟩ | ⟨o1, fd, h1, hfree, hlow, ht, hk1⟩
  · rw [h1]; exact Or.inl ⟨o1, e, rfl, hc⟩
  · rw [h1]
    simp only
    rcases nio_cases o1 with ⟨o2, e, h2, hc2⟩ | ⟨o2, h2, hc2⟩
    · rw [h2]
      exact Or.inl ⟨_, e, rfl, (ht.called hc2).close hfree (hc2.killed.trans hk1)⟩
    · rw [h2]
      simp only
      have ht2 := ht.called hc2
      have hfd2 : o2.fds fd = some { conn := .inProgress } := by
        rw [ht2.fds, Function.update_self]
      rcases connect_cases hfd2 with ⟨o3, e, h3, hc3⟩ | ⟨o3, h3, ht3⟩
      · rw [h3]
        simp only
        split
        · exact Or.inl ⟨_, e, rfl, (ht2.called hc3).close hfree
            (hc3.killed.trans (hc2.killed.trans hk1))⟩
        · exact Or.inr ⟨o3, fd, _, rfl, ⟨hfree, hlow⟩, ht2.called hc3,
            hc3.killed.trans (hc2.killed.trans hk1), Or.inl rfl⟩
      · have hk3 : o3.killed = o2.killed := by
          unfold OS.connect at h3
          split at h3
          · cases h3; rfl
          · cases h3
        rw [h3]
        exact Or.inr ⟨o3, fd, _, rfl, ⟨hfree, hlow⟩, ht2.trans ht3,
          hk3.trans (hc2.killed.trans hk1), Or.inr rfl⟩

/-- A new origin: its socket is open, its item registered, its reference counted. -/
theorem Own.openOrigin {c : SCtx} (h : Own c) (hor : c.s.originFd = none) {os' : OS} {fd : Fd}
    {k : Sock} (hlow : LowestFree c fd) (ht : Touched c.os os' fd k)
    (hv : invalidFd fd = false) :
    ∃ sel', c.sel.selectorRegister fd .socks5 opWrite c.self = (sel', .success) ∧
      Good c { c with
        s := { c.s with originFd := some fd, references := c.s.references + 1 }
        os := os', sel := sel' } ∧
      ({ c with
        s := { c.s with originFd := some fd, references := c.s.references + 1 }
        os := os', sel := sel' } : SCtx).view =
          { c.view with originFd := some fd, og := k, oi := opWrite } := by
  have hun := h.table.unregistered hlow.1
  have hcf : c.s.clientFd ≠ fd := by
    intro he
    obtain ⟨k', hk'⟩ := h.client.2
    rw [he, hlow.1] at hk'; cases hk'
  let sel' : Selector := { c.sel with
    fds := Function.update c.sel.fds fd (some ⟨opWrite, .socks5, c.self⟩)
    maxFd := if fd > c.sel.maxFd then fd else c.sel.maxFd
    masterR := Function.update c.sel.masterR fd opWrite.read
    masterW := Function.update c.sel.masterW fd opWrite.write }
  have hfds : os'.fds fd = some k := by rw [ht.fds, Function.update_self]
  have hother : ∀ g, g ≠ fd → os'.fds g = c.os.fds g := fun g hg => by
    rw [ht.fds, Function.update_of_ne hg]
  have hsel : ∀ g, g ≠ fd → sel'.fds g = c.sel.fds g := fun g hg => Function.update_of_ne hg _ _
  refine ⟨sel', ?_, ⟨?_, ?_⟩, ?_⟩
  · simp [Selector.selectorRegister, hv, hun, Selector.itemsUpdateFdsetForFd, sel']
  · exact { Frame.refl c with
      foreign := fun g h1 h2 h3 => by
        have hg : g ≠ fd := fun he => h3 (by rw [he])
        exact ⟨hother g hg, hsel g hg⟩
      dropped := fun g h1 h2 => by rw [hor] at h1; cases h1
      fresh := fun g h1 => by
        cases Option.some.inj h1
        exact Or.inr ⟨hlow.1, fun g hg => ⟨hlow.2 g hg, by rw [hor]; simp⟩⟩
      os := ht.still
      sel := rfl
      lives := ht.lives
      past := past_none rfl rfl }
  · exact {
      client := by
        refine ⟨?_, ?_⟩
        · show ∃ i, sel'.fds c.s.clientFd = _
          rw [hsel _ hcf]; exact h.client.1
        · show ∃ k, os'.fds c.s.clientFd = _
          rw [hother _ hcf]; exact h.client.2
      origin := fun g hg => by
        cases Option.some.inj hg
        exact ⟨⟨opWrite, Function.update_self _ _ _⟩, ⟨k, hfds⟩⟩
      here := { h.here with
        refs := by
          have := h.here.refs
          simp only [originRefs, hor, Option.isSome_none, Option.isSome_some, if_true] at this ⊢
          simp only [Bool.false_eq_true, if_false] at this
          omega
        origin_ne := fun he => hcf (Option.some.inj he).symm }
      table := (h.table.withFds fun g _ _ hg => by
        by_cases hgf : g = fd
        · rw [hgf]; exact ⟨k, hfds⟩
        · rw [hother g hgf]; exact hg).setItem ⟨opWrite, .socks5, c.self⟩ hv ⟨k, hfds⟩ _ }
  · simp only [Ctx.view, Option.bind_some, hfds, hother _ hcf, hsel _ hcf, Option.getD_some]
    simp only [sel', Function.update_self, Option.map_some, Option.getD_some]

/-- `connecting_try_one`, its reference, and its registration when the selector
takes the number. -/
theorem connectingOpen_success {c : SCtx} {os' : OS} {fd : Fd} {sel' : Selector} (a : SockAddr)
    (h1 : connectingTryOne c =
      (({ c with os := os' } : SCtx).modify fun s => { s with originFd := some fd }, .ok ()))
    (hr : c.sel.selectorRegister fd .socks5 opWrite c.self = (sel', .success)) :
    connectingOpen a c = (({ c with
      s := { c.s with originFd := some fd, references := c.s.references + 1 }
      os := os', sel := sel' } : SCtx).note (.attempted a .opened), .ok true) := by
  simp only [connectingOpen, h1, connectingRegisterOrigin, Ctx.modify, hr, if_true]

/-- When the selector refuses the number, everything is undone. -/
theorem connectingOpen_refused {c : SCtx} {os' : OS} {fd : Fd} (a : SockAddr)
    (hor : c.s.originFd = none)
    (h1 : connectingTryOne c =
      (({ c with os := os' } : SCtx).modify fun s => { s with originFd := some fd }, .ok ()))
    (hv : invalidFd fd = true) :
    connectingOpen a c =
      (({ c with os := os'.close fd } : SCtx).note (.attempted a .unregistered), .ok false) := by
  have hr : c.sel.selectorRegister fd .socks5 opWrite c.self = (c.sel, .iargs) := by
    simp [Selector.selectorRegister, hv]
  have hs : ({ c.s with originFd := none, references := c.s.references + 1 - 1 } : Socks5) =
      c.s := by rw [Nat.add_sub_cancel, ← hor]
  simp only [connectingOpen, h1, connectingRegisterOrigin, Ctx.modify, hr, Ctx.close,
    Bool.false_eq_true, if_false, hs]

theorem connectingOpen_cases {c : SCtx} (h : Own c) (hor : c.s.originFd = none) (a : SockAddr) :
    (∃ c1 e, connectingOpen a c = (c1, .error e) ∧ Good c c1 ∧
      c1.view = c.view.note (.attempted a (.failed e))) ∨
    (∃ c1, connectingOpen a c = (c1, .ok false) ∧ Good c c1 ∧
      c1.view = c.view.note (.attempted a .unregistered)) ∨
    (∃ c1 fd k, connectingOpen a c = (c1, .ok true) ∧ Good c c1 ∧ Opening k ∧
      c1.view = { c.view with originFd := some fd, og := k, oi := opWrite }.note
        (.attempted a .opened)) := by
  rcases tryOne_cases c with ⟨os', e, h1, hc⟩ | ⟨os', fd, k, h1, hlow, ht, hkill, hk⟩
  · obtain ⟨hg, hv⟩ := h.called hc
    have hn := hg.trans h (hg.own.note (o := .attempted a (.failed e)) rfl)
    refine Or.inl ⟨_, e, by simp only [connectingOpen, h1], hn, ?_⟩
    rw [view_note, hv]
  · by_cases hv : invalidFd fd = true
    · obtain ⟨hg, hview⟩ := h.called (ht.close hlow.1 hkill)
      refine Or.inr (Or.inl ⟨_, connectingOpen_refused a hor h1 hv,
        hg.trans h (hg.own.note rfl), ?_⟩)
      rw [view_note, hview]
    · obtain ⟨sel', hreg, hg, hview⟩ := h.openOrigin hor hlow ht (by simpa using hv)
      refine Or.inr (Or.inr ⟨_, fd, k, connectingOpen_success a h1 hreg,
        hg.trans h (hg.own.note rfl), hk, ?_⟩)
      rw [view_note, hview]

/-! ## Going through the addresses -/

theorem Own.setConn {c : SCtx} (h : Own c) (f : Connecting → Connecting) :
    Good c (setConn f c) := h.modify ⟨rfl, rfl, rfl, rfl, rfl, rfl⟩

@[simp] theorem view_setConn (f : Connecting → Connecting) (c : SCtx) :
    (setConn f c).view = { c.view with orig := .conn (f c.view.orig.asConn) } := rfl

/-- What a round of attempts comes to: one is under way, or the client's
descriptor is to be woken. -/
structure Tried (strict : Prop) (c c' : SCtx) : Prop where
  good : Good c c'
  moves : Moves strict c.view c'.view
  st : c'.s.stm = some .connecting
  rest : c'.view.Rest

theorem Tried.after {a c c' : SCtx} (ha : Own a) (hg : Good a c) (hm : Moves strict a.view c.view)
    (h : Tried strict c c') : Tried strict a c' := ⟨hg.trans ha h.good, hm.trans h.moves, h.st, h.rest⟩

theorem Tried.settled {c c' : SCtx} (h : Tried strict c c') : Settled c' :=
  .of_rest h.st (by decide) h.rest

theorem connectFailed_spec {c : SCtx} (h : Own c) :
    Good c (connectFailed c) ∧ (connectFailed c).view = { c.view with ci := opWrite } := by
  have h1 := h.setFailure .connectFailed
  obtain ⟨c2, he, h2, hv, -⟩ := h1.own.setClientInterest opWrite
  have hc : connectFailed c = c2 := congrArg Prod.fst he
  rw [hc, hv, view_setFailure]
  exact ⟨h1.trans h h2, rfl⟩

theorem rest_connecting {v : View} (hst : v.st = some .connecting)
    (h : v.originFd = none → v.ci = opWrite) : v.Rest := by
  unfold View.Rest
  rw [hst]
  exact h

/-- A session about to make an attempt, or with none left to make. -/
structure Ready (c : SCtx) : Prop where
  own : Own c
  st : c.s.stm = some .connecting
  origin : c.s.originFd = none
  ci : c.view.ci = opNoop

/-- The end of a list whose last attempt failed. -/
theorem Ready.exhausted {c : SCtx} (h : Ready c) (hcur : c.view.orig.asConn.current = [])
    {a : SockAddr} {e : Errno}
    (hlast : c.view.hist.getLast? = some (.attempted a (.failed e))) :
    Tried strict c (connectFailed c) := by
  obtain ⟨hg, hv⟩ := connectFailed_spec h.own
  refine ⟨hg, ?_, (congrArg View.st hv).trans h.st, ?_⟩
  · rw [hv]; exact .single (.exhausted a e h.st h.origin h.ci hcur hlast)
  · rw [hv]; exact rest_connecting h.st fun _ => rfl

/-- One attempt, with what the code does about its outcome when it is not an error. -/
theorem Ready.open {c : SCtx} (h : Ready c) {a : SockAddr} {rest : List SockAddr}
    (hat : c.view.Attempting a rest) :
    (∃ c1 e, connectingOpen a (setConn (fun cn => { cn with current := rest }) c) =
        (c1, .error e) ∧
      let c2 := setConn (fun cn => { cn with reply := errnoToSocksReply e }) c1
      Good c c2 ∧ Moves strict c.view c2.view ∧ Ready c2 ∧ c2.view.orig.asConn.current = rest ∧
        c2.view.hist.getLast? = some (.attempted a (.failed e))) ∨
    (∃ c1, connectingOpen a (setConn (fun cn => { cn with current := rest }) c) =
        (c1, .ok false) ∧
      Tried strict c (connectFailed (setConn (fun cn => { cn with reply := replyGeneralFailure }) c1))) ∨
    (∃ c1, connectingOpen a (setConn (fun cn => { cn with current := rest }) c) =
        (c1, .ok true) ∧ Tried strict c c1) := by
  have h0 := h.own.setConn (fun cn => { cn with current := rest })
  rcases connectingOpen_cases h0.own h.origin a with
    ⟨c1, e, he, h1, hv⟩ | ⟨c1, he, h1, hv⟩ | ⟨c1, fd, k, he, h1, hk, hv⟩
  · have h2 := h1.own.setConn (fun cn => { cn with reply := errnoToSocksReply e })
    have hv2 : (setConn (fun cn => { cn with reply := errnoToSocksReply e }) c1).view =
        (c.view.setReply e rest).note (.attempted a (.failed e)) := by
      rw [view_setConn, hv]; rfl
    have hg := h0.trans h.own (h1.trans h0.own h2)
    refine Or.inl ⟨c1, e, he, hg, ?_, ⟨hg.own, ?_, ?_, ?_⟩, ?_, ?_⟩
    · rw [hv2]; exact .single (.attemptFailed a rest e hat)
    · exact (congrArg View.st hv2).trans h.st
    · exact (congrArg View.originFd hv2).trans h.origin
    · rw [hv2]; exact h.ci
    · rw [hv2]; rfl
    · rw [hv2]; simp
  · have h2 := h1.own.setConn (fun cn => { cn with reply := replyGeneralFailure })
    obtain ⟨h3, hv3⟩ := connectFailed_spec h2.own
    have hg := h0.trans h.own (h1.trans h0.own (h2.trans h1.own h3))
    have hv4 : (connectFailed (setConn (fun cn => { cn with reply := replyGeneralFailure })
        c1)).view = { c.view with orig := .conn ⟨rest, replyGeneralFailure⟩, ci := opWrite }.note
          (.attempted a .unregistered) := by
      rw [hv3, view_setConn, hv]; rfl
    refine Or.inr (Or.inl ⟨c1, he, hg, ?_, (congrArg View.st hv4).trans h.st, ?_⟩)
    · rw [hv4]; exact .single (.attemptUnregistered a rest hat)
    · rw [hv4]; exact rest_connecting h.st fun _ => rfl
  · have hg := h0.trans h.own h1
    refine Or.inr (Or.inr ⟨c1, he, hg, ?_, (congrArg View.st hv).trans h.st, ?_⟩)
    · rw [hv]; exact .single (.attemptOpened a rest fd k hat hk)
    · rw [hv]; exact rest_connecting h.st fun hn => absurd hn (by simp [View.note])

/-- The loop over the list. -/
theorem tryAddrinfo_tried : ∀ (l : List SockAddr) {c : SCtx}, Ready c →
    c.view.orig.asConn.current = l →
    (l = [] → ∃ a e, c.view.hist.getLast? = some (.attempted a (.failed e))) →
    Tried strict c (tryAddrinfo l c)
  | [], c, h, hcur, hlast => by
    obtain ⟨a, e, hl⟩ := hlast rfl
    exact h.exhausted hcur hl
  | a :: rest, c, h, hcur, _ => by
    have hat : c.view.Attempting a rest := ⟨h.st, h.origin, h.ci, Or.inl hcur⟩
    unfold tryAddrinfo
    rcases h.open hat with ⟨c1, e, he, hg, hm, hr, hcur', hl⟩ | ⟨c1, he, ht⟩ | ⟨c1, he, ht⟩
    · rw [he]
      exact (tryAddrinfo_tried rest hr hcur' fun _ => ⟨a, e, hl⟩).after h.own hg hm
    · rw [he]; exact ht
    · rw [he]; exact ht

theorem Ready.start {c : SCtx} (h : Ready c) (ho : ∃ cn, c.s.orig = .conn cn) {t : Int}
    (hlast : c.view.hist.getLast? = some (.entered .connecting t)) :
    Tried strict c (connectingStart c) := by
  unfold connectingStart
  by_cases hcur : c.s.orig.asConn.current = []
  · rw [if_neg (fun hn => hn hcur)]
    have hat : c.view.Attempting (literalAddr c.s.client.asRequest.parser.request) [] :=
      ⟨h.st, h.origin, h.ci, Or.inr ⟨hcur, rfl, ⟨t, hlast⟩, rfl⟩⟩
    have hs : setConn (fun cn => { cn with current := [] }) c = c := by
      obtain ⟨cn, ho⟩ := ho
      rw [ho] at hcur
      have hcn : ({ cn with current := [] } : Connecting) = cn := by rw [← hcur]; rfl
      have hs' : { c.s with orig := .conn { c.s.orig.asConn with current := [] } } = c.s := by
        rw [ho, OrigUnion.asConn, hcn, ← ho]
      exact congrArg (fun s => ({ c with s := s } : SCtx)) hs'
    have hopen := @Ready.open strict _ h _ _ hat
    rw [hs] at hopen
    rcases hopen with ⟨c1, e, he, hg, hm, hr, hcur', hl⟩ | ⟨c1, he, ht⟩ | ⟨c1, he, ht⟩
    · rw [he]
      exact (hr.exhausted hcur' hl).after h.own hg hm
    · rw [he]; exact ht
    · rw [he]; exact ht
  · rw [if_pos hcur]
    exact tryAddrinfo_tried _ h rfl fun hn => absurd hn hcur

/-- Entering CONNECTING. -/
theorem arrive_connecting {c : SCtx} (h : Own c) (hor : c.s.originFd = none)
    (hci : c.view.ci = opNoop) (fd : Fd) :
    Good c (arrive .connecting fd c) ∧
    Moves strict (c.view.toConnecting c.view.orig.asConn.current c.os.now)
      (arrive .connecting fd c).view ∧
    (arrive .connecting fd c).s.stm = some .connecting ∧
    Settled (arrive .connecting fd c) := by
  have h1 : Good c (c.modify fun s => { s with stm := some .connecting }) :=
    h.modify ⟨rfl, rfl, rfl, rfl, rfl, rfl⟩
  have h2 := h1.trans h (h1.own.note (o := .entered .connecting c.os.now) rfl)
  have h3 := h2.trans h (h2.own.setConn fun cn => { cn with reply := replyGeneralFailure })
  have h4 := h3.trans h (h3.own.modify
    (f := fun s => { s with connectDeadline := connectDeadlineFor c.g.config c.os.now })
    ⟨rfl, rfl, rfl, rfl, rfl, rfl⟩)
  have ht := @Ready.start strict _ ⟨h4.own, rfl, hor, hci⟩ ⟨_, rfl⟩ (t := c.os.now) (by
    simp [setConn, Ctx.note, Ctx.modify, Ctx.view])
  exact ⟨h4.trans h ht.good, ht.moves, ht.st, ht.settled⟩

/-! ## Giving an origin up -/

/-- The close callback of an origin takes one reference, and never the last. -/
theorem socksClose_origin {c : SCtx} (h : Own c) (hl : c.view.Ledger) {fd : Fd}
    (hor : c.s.originFd = some fd) {i : Interest} :
    socksClose ⟨i, .socks5, c.self⟩ c =
      c.modify fun s => { s with references := s.references - 1 } := by
  have hne : c.s.references ≠ 1 := by
    have hr := h.here.refs
    have hl : submissions c.s.hist = consumptions c.s.hist + _ := hl
    simp only [originRefs, hor, Option.isSome_some, if_true] at hr
    omega
  simp only [socksClose, if_true, socks5Destroy, if_neg hne]

theorem dropOrigin_eq {c : SCtx} (h : Own c) (hl : c.view.Ledger) {fd : Fd}
    (hor : c.s.originFd = some fd) : dropOrigin c = { c with
      s := { c.s with originFd := none, references := c.s.references - 1 }
      os := c.os.close fd, sel := c.sel.dropItem fd } := by
  have hv := h.table.valid fd _ (h.origin_item hor)
  simp only [dropOrigin, hor, Ctx.selectorUnregisterFd, hv, h.origin_item hor,
    socksClose_origin h hl hor]
  rfl

theorem dropOrigin_spec {c : SCtx} (h : Own c) (hl : c.view.Ledger) :
    Good c (dropOrigin c) ∧ (dropOrigin c).view = c.view.noOrigin := by
  cases hor : c.s.originFd with
  | none =>
    have heq : dropOrigin c = c := by simp only [dropOrigin, hor]
    rw [heq]
    exact ⟨.refl h, by simp only [Ctx.view, noOrigin, hor]; rfl⟩
  | some fd =>
  have hcf : c.s.clientFd ≠ fd := fun he => h.here.origin_ne (by rw [hor, he])
  have heq := dropOrigin_eq h hl hor
  have hother : ∀ g, g ≠ fd → (c.os.close fd).fds g = c.os.fds g := fun g hg =>
    Function.update_of_ne hg _ _
  rw [heq]
  refine ⟨⟨?_, ?_⟩, ?_⟩
  · exact { Frame.refl c with
      foreign := fun g h1 h2 _ => by
        have hg : g ≠ fd := fun he => h2 (by rw [hor, he])
        exact ⟨hother g hg, dropItem_other hg⟩
      dropped := fun g h1 _ => by
        rw [hor] at h1
        cases Option.some.inj h1
        exact ⟨Function.update_self _ _ _, dropItem_self _ _⟩
      fresh := fun g h1 => by cases h1
      sel := rfl
      os := still_close (h.origin_sock hor)
      past := past_none rfl rfl }
  · exact {
      client := by
        refine ⟨?_, ?_⟩
        · show ∃ i, (c.sel.dropItem fd).fds c.s.clientFd = _
          rw [dropItem_other hcf]; exact h.client.1
        · show ∃ k, (c.os.close fd).fds c.s.clientFd = _
          rw [hother _ hcf]; exact h.client.2
      origin := fun g hg => by cases hg
      here := { h.here with
        refs := by
          have := h.here.refs
          have hl : submissions c.s.hist = consumptions c.s.hist + _ := hl
          simp only [originRefs, hor, Option.isSome_none, Option.isSome_some, if_true] at this ⊢
          simp only [Bool.false_eq_true, if_false]
          omega
        origin_ne := by simp }
      table := (h.table.dropItem fd).withFds fun g it hi ho => by
        have hg : g ≠ fd := by rintro rfl; rw [dropItem_self] at hi; cases hi
        rw [hother g hg]; exact ho }
  · simp only [Ctx.view, noOrigin, Option.bind_none, hother _ hcf, dropItem_other hcf]
    rfl

/-! ## The events of CONNECTING -/

/-- An origin is given up and counted. -/
theorem Own.gaveUp {c : SCtx} (h : Own c) :
    Good c ((c.metrics Metrics.metricsOriginFail).note .connectFailed) :=
  h.noteCounted (o := .connectFailed) rfl rfl rfl

/-- What `connecting_write` learns about its origin. -/
theorem originError_spec {c : SCtx} (h : Own c) {fd : Fd} (hor : c.s.originFd = some fd) :
    (∃ c1, originError fd c = (c1, none) ∧ Good c (c1.metrics Metrics.metricsOriginOk) ∧
      c.view.og.soError = none ∧ c1.view = c.view.sawOrigin none) ∨
    (∃ c1 e k, originError fd c = (c1, some e) ∧ Good c c1 ∧
      c1.view = { c.view.sawOrigin (some e) with og := k }) := by
  have hk := h.origin_sock hor
  unfold originError
  rcases getsockopt_cases hk with ⟨os', e, hr, hc⟩ | ⟨os', hr, ht⟩
  · obtain ⟨hg, hv⟩ := h.called hc
    rw [hr, hk]
    refine Or.inr ⟨_, e, c.view.og, rfl, hg.trans h (hg.own.note rfl), ?_⟩
    rw [view_note, hv]; rfl
  · obtain ⟨hg, hv⟩ := h.touchOrigin hor ht
    rw [hr, hk]
    cases hso : c.view.og.soError with
    | none =>
      refine Or.inl ⟨_, rfl, hg.trans h (hg.own.noteCounted (o := .completed none _ _) rfl rfl rfl), rfl, ?_⟩
      have hsame : ({ c.view.og with soError := none } : Sock) = c.view.og := by rw [← hso]
      rw [view_note, hv, hsame]; rfl
    | some e =>
      refine Or.inr ⟨_, e, { c.view.og with soError := none }, rfl,
        hg.trans h (hg.own.note rfl), ?_⟩
      rw [view_note, hv]; rfl

theorem connectingWrite_client {c : SCtx} (h : Own c) (hs : c.view.Sane)
    (hst : c.s.stm = some .connecting) (hw : c.view.ci.write = true) :
    Handled strict c .connecting (connectingWrite c.s.clientFd c) := by
  have hvst : c.view.st = some .connecting := hst
  simp only [Sane, hvst] at hs
  obtain ⟨hwb, -, -, hci, hor⟩ := hs
  have hnone : c.view.originFd = none := by
    by_contra hn
    rw [(hor hn).1] at hw
    cases hw
  have hciw : c.view.ci = opWrite := (hci hnone).resolve_left fun hn => by rw [hn] at hw; cases hw
  have h1 := h.setFailure .connectFailed
  have h2 := h1.trans h h1.own.gaveUp
  obtain ⟨c3, he, h3, hv⟩ := marshalReply_spec h2.own (by
    rw [view_note, view_metrics, view_setFailure]; exact hwb) c.s.orig.asConn.reply
  have heq : connectingWrite c.s.clientFd c = (c3, .requestWrite) := by
    have hreply : (((socks5SetFailure .connectFailed c).metrics Metrics.metricsOriginFail).note
        .connectFailed).s.orig.asConn.reply = c.s.orig.asConn.reply := rfl
    unfold connectingWrite
    rw [if_pos rfl]
    simp only [hreply, he]
  rw [heq]
  refine .enter (h2.trans h h3) ((congrArg View.st hv).trans hvst) rfl (by decide) fun t => ?_
  have hm : Move strict _ _ := .gaveUp t hvst hnone hciw
  have heq' : c3.view.enter .requestWrite t =
      (c.view.note .connectFailed).answer c.view.orig.asConn.reply t := by
    rw [hv, view_note, view_metrics, view_setFailure, answer]
    simp only [View.note, hwb, ← hciw, List.nil_append]
    rfl
  rw [heq']
  exact .single hm

/-- The origin is connected: the reply goes out. -/
theorem connectingDone_handled {a c : SCtx} (ha : Own a) (hs : a.view.Sane)
    (hst : a.s.stm = some .connecting) {fd : Fd} (hor : a.s.originFd = some fd)
    (hso : a.view.og.soError = none) (hrep : strict → a.view.og.reported = true)
    (h2 : Good a (c.metrics Metrics.metricsOriginOk)) (hv : c.view = a.view.sawOrigin none) :
    Handled strict a .connecting (connectingDone fd c) := by
  have hvst : a.view.st = some .connecting := hst
  simp only [Sane, hvst] at hs
  obtain ⟨c3, he3, h3, hst3, hv3⟩ := replyAndArm_spec h2.own (by
    rw [view_metrics, hv]; exact hs.1) replySucceeded
  simp only [view_metrics, hv] at hv3
  have hor3 : c3.s.originFd = some fd := (congrArg View.originFd (hv3 0)).trans hor
  have hst3' : c3.s.stm = some .connecting :=
    hst3.trans ((congrArg View.st hv).trans hvst)
  obtain ⟨c4, he4, h4, hv4, -⟩ := h3.own.setOriginInterest hor3 opNoop
  have heq : connectingDone fd c = (c4, .requestWrite) := by
    unfold connectingDone
    rw [show c.s.clientFd = (c.metrics Metrics.metricsOriginOk).s.clientFd from rfl, he3]
    simp only [he4]
  have hst4 : c4.s.stm = some .connecting := (congrArg View.st hv4).trans hst3'
  rw [heq]
  refine .enter (h2.trans ha (h3.trans h2.own h4)) hst4 rfl (by decide) fun t => ?_
  have heq' : c4.view.enter .requestWrite t =
      ({ a.view.sawOrigin none with oi := opNoop }.answer replySucceeded t) := by
    rw [hv4]
    exact congrArg (fun v : View => { v with oi := opNoop }) (hv3 t)
  rw [heq']
  exact .single (.connected fd t hvst hor hso hrep)

/-- The connect failed: another attempt, or the reply. -/
theorem connectingRetry_handled {a c : SCtx} (ha : Own a) (hs : a.view.Sane)
    (hl : a.view.Ledger) (hst : a.s.stm = some .connecting) {fd : Fd}
    (hor : a.s.originFd = some fd) {e : Errno} {k : Sock} (h : Good a c)
    (hv : c.view = { a.view.sawOrigin (some e) with og := k }) :
    Handled strict a .connecting (connectingRetry e c) := by
  have hvst : a.view.st = some .connecting := hst
  have hvor : a.view.originFd = some fd := hor
  simp only [Sane, hvst] at hs
  obtain ⟨hwb, -, -, -, hci⟩ := hs
  obtain ⟨hci, -⟩ := hci (by rw [hvor]; simp)
  have h2 := h.own.setConn fun cn => { cn with reply := errnoToSocksReply e }
  obtain ⟨h3, hv3⟩ := dropOrigin_spec h2.own (by
    rw [view_setConn, hv]
    simpa [Ledger, sawOrigin, hvst] using hl)
  unfold connectingRetry
  simp only
  generalize dropOrigin (setConn _ c) = c3 at h3 hv3 ⊢
  have hv3' : c3.view = ((a.view.sawOrigin (some e)).setReply e
      a.view.orig.asConn.current).noOrigin := by
    rw [hv3, view_setConn, hv]; rfl
  have hst3 : c3.s.stm = some .connecting := (congrArg View.st hv3').trans hvst
  have horig : c3.s.orig = .conn ⟨a.view.orig.asConn.current, errnoToSocksReply e⟩ :=
    congrArg View.orig hv3'
  have hg3 := h.trans ha (h2.trans h.own h3)
  have hcur : c3.s.orig.asConn.current = a.view.orig.asConn.current := by rw [horig]; rfl
  by_cases hnil : a.view.orig.asConn.current = []
  · rw [if_neg (fun hn => hn (hcur.trans hnil))]
    have h4 := h3.own.setFailure .connectFailed
    have h5 := h4.trans h3.own h4.own.gaveUp
    obtain ⟨c6, he6, h6, hst6, hv6⟩ := replyAndArm_spec h5.own (by
      rw [view_note, view_metrics, view_setFailure, hv3']; exact hwb) (errnoToSocksReply e)
    simp only [view_note, view_metrics, view_setFailure, hv3'] at hv6
    have hreply : (((socks5SetFailure .connectFailed c3).metrics
        Metrics.metricsOriginFail).note .connectFailed).s.orig.asConn.reply =
          errnoToSocksReply e := by
      show c3.s.orig.asConn.reply = _
      rw [horig]; rfl
    have heq : replyAndArm (errnoToSocksReply e) (((socks5SetFailure .connectFailed c3).metrics
        Metrics.metricsOriginFail).note .connectFailed).s.clientFd _ = (c6, .requestWrite) := he6
    rw [hreply, heq]
    refine .enter (hg3.trans ha (h5.trans h3.own h6)) (hst6.trans hst3) rfl (by decide)
      fun t => ?_
    rw [hv6 t, hnil]
    exact .single (.originGaveUp fd e t hvst hvor hnil)
  · rw [if_pos (fun hn => hnil (hcur.symm.trans hn))]
    have ht : Tried strict c3 (connectingTryAddrinfo c3) :=
      tryAddrinfo_tried _ ⟨h3.own, hst3, congrArg View.originFd hv3', by
        rw [hv3']; exact hci⟩ rfl fun hn => absurd (hcur.symm.trans hn) hnil
    have hm : Moves strict a.view c3.view := by
      rw [hv3']; exact .single (.originFailed fd e hvst hvor hnil)
    exact ⟨hg3.trans ha ht.good, ht.st, fun _ => ⟨hm.trans ht.moves, fun _ => ht.settled⟩,
      fun hn => absurd rfl hn⟩

theorem connectingWrite_origin {c : SCtx} (h : Own c) (hs : c.view.Sane) (hl : c.view.Ledger)
    (hst : c.s.stm = some .connecting) {fd : Fd} (hor : c.s.originFd = some fd)
    (hrep : strict → c.view.og.reported = true) :
    Handled strict c .connecting (connectingWrite fd c) := by
  have hne : fd ≠ c.s.clientFd := fun he => h.here.origin_ne (by rw [hor, he])
  unfold connectingWrite
  rw [if_neg hne]
  rcases originError_spec h hor with ⟨c1, he, h1, hso, hv1⟩ | ⟨c1, e, k, he, h1, hv1⟩
  · rw [he]
    exact connectingDone_handled h hs hst hor hso hrep h1 hv1
  · rw [he]
    exact connectingRetry_handled h hs hl hst hor h1 hv1

/-- The sweep gives up on a connect. -/
theorem connectingTimeout_spec {c : SCtx} (h : Own c) (hl : c.view.Ledger)
    (hst : c.s.stm = some .connecting) :
    Good c (connectingTimeout c) ∧ Moves strict c.view (connectingTimeout c).view ∧
      (connectingTimeout c).s.stm = some .connecting ∧ Settled (connectingTimeout c) := by
  have hvst : c.view.st = some .connecting := hst
  obtain ⟨h1, hv1⟩ := dropOrigin_spec h hl
  have h2 := h1.own.setConn fun _ => { current := [], reply := replyTtlExpired }
  have h3 := h2.own.note (o := .timedOut .connect (dropOrigin c).os.now) rfl
  obtain ⟨c4, he, h4, hv4, -⟩ := h3.own.setClientInterest opWrite
  have heq : connectingTimeout c = c4 := congrArg Prod.fst he
  have hv : c4.view = { ({ c.view with orig := .conn ⟨[], replyTtlExpired⟩ }.noOrigin).note
      (.timedOut .connect (dropOrigin c).os.now) with ci := opWrite } := by
    rw [hv4, view_note, view_setConn, hv1]; rfl
  have hst4 : c4.s.stm = some .connecting := (congrArg View.st hv).trans hvst
  rw [heq]
  refine ⟨h1.trans h (h2.trans h1.own (h3.trans h2.own h4)), ?_, hst4, ?_⟩
  · rw [hv]; exact .single (.connectTimedOut _ hvst)
  · exact .of_rest hst4 (by decide) (hv ▸ rest_connecting hvst fun _ => rfl)

end Socks5d
