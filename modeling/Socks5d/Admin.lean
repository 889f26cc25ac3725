import Socks5d.Calls
import Socks5d.Wording

/-! # A management session keeps its own

Every callback of `mng.c` works on its session's descriptor and on the shared
stores. While the session is open a command is answered by exactly one
response, and nothing else queues one. -/
namespace Socks5d
open Ctx Lib.CString Lib.Words Lib.Slots

/-! ## Ownership -/

/-- A management session in good order: open, registered, with its socket. -/
structure Admin (c : MCtx) : Prop where
  item : ∃ i, c.sel.fds c.s.fd = some ⟨i, .mng, c.self⟩
  sock : ∃ k, c.os.fds c.s.fd = some k
  table : Table c.os c.sel
  opened : c.s.closedWith = none

/-- What no open management session changes. -/
def Globals.beside (g : Globals) : Globals := { g with users := none, config := none }

/-- `c'` comes from `c` by operations of the session `c` is the context of. -/
structure AdminFrame (c c' : MCtx) : Prop where
  self : c'.self = c.self
  fd : c'.s.fd = c.s.fd
  foreign : ∀ fd, fd ≠ c.s.fd → c'.os.fds fd = c.os.fds fd ∧ c'.sel.fds fd = c.sel.fds fd
  os : c'.os.still = c.os.still
  sel : c'.sel.still = c.sel.still
  g : c'.g.beside = c.g.beside
  lives : c.os.Lives c'.os

/-- `c'` is still the context of a management session in good order. -/
structure AdminGood (c c' : MCtx) : Prop where
  frame : AdminFrame c c'
  own : Admin c'

theorem AdminFrame.refl (c : MCtx) : AdminFrame c c :=
  ⟨rfl, rfl, fun _ _ => ⟨rfl, rfl⟩, rfl, rfl, rfl, Or.inl rfl⟩

theorem AdminGood.refl {c : MCtx} (h : Admin c) : AdminGood c c := ⟨.refl c, h⟩

theorem AdminGood.trans {a b c : MCtx} (h₁ : AdminGood a b) (h₂ : AdminGood b c) : AdminGood a c where
  frame :=
    { self := h₂.frame.self.trans h₁.frame.self
      fd := h₂.frame.fd.trans h₁.frame.fd
      foreign := fun fd hfd => by
        obtain ⟨h1, h2⟩ := h₁.frame.foreign fd hfd
        obtain ⟨h3, h4⟩ := h₂.frame.foreign fd (by rw [h₁.frame.fd]; exact hfd)
        exact ⟨h3.trans h1, h4.trans h2⟩
      os := h₂.frame.os.trans h₁.frame.os
      sel := h₂.frame.sel.trans h₁.frame.sel
      g := h₂.frame.g.trans h₁.frame.g
      lives := h₁.frame.lives.trans h₁.frame.os h₂.frame.lives }
  own := h₂.own

/-- Changing the session's memory only. -/
theorem Admin.modify {c : MCtx} (h : Admin c) {f : MngSession → MngSession}
    (hfd : (f c.s).fd = c.s.fd) (hc : (f c.s).closedWith = c.s.closedWith) :
    AdminGood c (c.modify f) where
  frame := { AdminFrame.refl c with fd := hfd, foreign := fun _ _ => ⟨rfl, rfl⟩ }
  own :=
    { item := by simpa only [Ctx.modify, hfd] using h.item
      sock := by simpa only [Ctx.modify, hfd] using h.sock
      table := h.table
      opened := hc.trans h.opened }

/-- Changing the user store or the configuration. -/
theorem Admin.onGlobals {c : MCtx} (h : Admin c) {g' : Globals} (hg : g'.beside = c.g.beside) :
    AdminGood c { c with g := g' } where
  frame := { AdminFrame.refl c with foreign := fun _ _ => ⟨rfl, rfl⟩, g := hg }
  own := { item := h.item, sock := h.sock, table := h.table, opened := h.opened }

theorem Admin.setInterest {c : MCtx} (h : Admin c) {fd : Fd} (hfd : fd = c.s.fd) (i : Interest) :
    ∃ sel', (c.selectorSetInterest fd i).1 = { c with sel := sel' } ∧
      AdminGood c { c with sel := sel' } := by
  subst hfd
  obtain ⟨j, hj⟩ := h.item
  have hv := h.table.valid _ _ hj
  let sel' : Selector := { c.sel with
    fds := Function.update c.sel.fds c.s.fd (some ⟨i, .mng, c.self⟩)
    masterR := Function.update c.sel.masterR c.s.fd i.read
    masterW := Function.update c.sel.masterW c.s.fd i.write }
  refine ⟨sel', ?_, ⟨{ AdminFrame.refl c with
    foreign := fun g hg => ⟨rfl, Function.update_of_ne hg _ _⟩
    sel := rfl }, ?_⟩⟩
  · simp [Ctx.selectorSetInterest, Selector.selectorSetInterest, hv, hj,
      Selector.itemsUpdateFdsetForFd, sel']
  · exact {
      item := ⟨i, Function.update_self _ _ _⟩
      sock := h.sock
      table := h.table.setItem ⟨i, .mng, c.self⟩ hv h.sock c.sel.maxFd
      opened := h.opened }

/-- The item of a session whose interest was set. -/
theorem Admin.watched {c : MCtx} (h : Admin c) {fd : Fd} (hfd : fd = c.s.fd) (i : Interest) :
    (c.selectorSetInterest fd i).1.sel.fds c.s.fd = some ⟨i, .mng, c.self⟩ := by
  subst hfd
  obtain ⟨j, hj⟩ := h.item
  have hv := h.table.valid _ _ hj
  simp [Ctx.selectorSetInterest, Selector.selectorSetInterest, hv, hj,
    Selector.itemsUpdateFdsetForFd]

/-- A call that changed the session's socket. -/
theorem Admin.touch {c : MCtx} (h : Admin c) {os' : OS} {k : Sock}
    (ht : Touched c.os os' c.s.fd k) : AdminGood c { c with os := os' } where
  frame := { AdminFrame.refl c with
    foreign := fun g hg => ⟨by show os'.fds g = _; rw [ht.fds, Function.update_of_ne hg], rfl⟩
    os := ht.still
    lives := ht.lives }
  own :=
    { item := h.item
      sock := ⟨k, by show os'.fds c.s.fd = _; rw [ht.fds, Function.update_self]⟩
      table := h.table.withFds fun g _ _ hg => by
        by_cases hgf : g = c.s.fd
        · exact ⟨k, by rw [hgf, ht.fds, Function.update_self]⟩
        · rw [ht.fds, Function.update_of_ne hgf]; exact hg
      opened := h.opened }

/-! ## Responses -/

/-- What a command leaves alone in its session. -/
def MngSession.input (s : MngSession) : Fd × Bytes × Bytes × Nat × List MngObs × Option Sock :=
  (s.fd, s.line, s.inBuf, s.inPos, s.hist, s.closedWith)

/-- The flags of a session. -/
structure Mng.Standing where
  authenticated : Bool
  failures : Nat
  locked : Bool
  closing : Bool
  deriving DecidableEq, Repr

def MngSession.standing (s : MngSession) : Mng.Standing :=
  ⟨s.authenticated, s.authFailures, s.locked, s.closing⟩

/-- The line asks for the list of the users, and the session may have it. -/
def Mng.Standing.Lists (st : Mng.Standing) (line : Bytes) : Prop :=
  st.authenticated = true ∧ st.locked = false ∧ Mng.command line = some (lit "USERS")

/-- A command was answered, with one line unless the answer lists the users and
a stored name breaks it. -/
structure Replied (lists : Prop) (c c' : MCtx) : Prop where
  good : AdminGood c c'
  os : c'.os = c.os
  input : c'.s.input = c.s.input
  outSent : c'.s.outSent = 0
  out : c'.s.out ≠ []
  line : ∀ tidy, Stocked tidy c.g.users → (OneLine c'.s.out ↔ (lists → tidy))
  names : ∀ tidy, Stocked tidy c.g.users → Stocked tidy c'.g.users
  item : c'.sel.fds c.s.fd = some ⟨opWrite, .mng, c.self⟩

/-- An answer of another kind. -/
theorem Replied.other {lists : Prop} {c c' : MCtx} (h : Replied False c c') (hl : ¬lists) :
    Replied lists c c' :=
  { h with line := fun tidy ht => (h.line tidy ht).trans (iff_of_true False.elim fun hl' => absurd hl' hl) }

theorem input_fd {s s' : MngSession} (h : s'.input = s.input) : s'.fd = s.fd :=
  congrArg Prod.fst h

namespace Mng

variable {fd : Fd} {c0 c : MCtx}

theorem queueResponse_replied (hfd : fd = c0.s.fd) (hg : AdminGood c0 c) (hos : c.os = c0.os)
    (hin : c.s.input = c0.s.input) {text : Bytes} (hl : OneLine text)
    (hn : ∀ tidy, Stocked tidy c0.g.users → Stocked tidy c.g.users) :
    Replied False c0 (queueResponse fd text c) := by
  unfold queueResponse
  simp only
  generalize htext : (if text.length ≥ mngWriteSize then lit "-ERR response too large\n"
    else text) = t
  have ht : OneLine t := by
    rw [← htext]
    split
    · decide
    · exact hl
  have h1 := hg.own.modify (f := fun s => { s with out := t, outSent := 0 }) rfl rfl
  have hfd1 : fd = c.s.fd := hfd.trans (input_fd hin).symm
  have hitem := h1.own.watched hfd1 opWrite
  obtain ⟨sel', he, h2⟩ := h1.own.setInterest hfd1 opWrite
  rw [he] at hitem ⊢
  refine ⟨hg.trans (h1.trans h2), hos, hin, rfl, ht.ne_nil,
    fun _ _ => iff_of_true ht False.elim, hn, ?_⟩
  rw [← input_fd hin, ← hg.frame.self]
  exact hitem

/-- A response that depends on nothing the command changed. -/
theorem queueResponse_plain (h : Admin c) (hfd : fd = c.s.fd) {t : Bytes} (hl : OneLine t) :
    Replied False c (queueResponse fd t c) :=
  queueResponse_replied hfd (.refl h) rfl rfl hl fun _ => id

theorem requireAuth_cases (h : Admin c) (hfd : fd = c.s.fd) :
    (∃ c', requireAuth fd c = (c', false) ∧ Replied False c c' ∧
        ¬(c.s.authenticated = true ∧ c.s.locked = false)) ∨
      requireAuth fd c = (c, true) ∧ c.s.authenticated = true ∧ c.s.locked = false := by
  unfold requireAuth
  split
  · next hl => exact Or.inl ⟨_, rfl, queueResponse_plain h hfd (by decide),
      fun hh => by simp [hh.2] at hl⟩
  · next hl =>
    split
    · next ha => exact Or.inl ⟨_, rfl, queueResponse_plain h hfd (by decide),
        fun hh => by simp [hh.1] at ha⟩
    · next ha => exact Or.inr ⟨rfl, by simpa using ha, by simpa using hl⟩

theorem handleAuth_replied (h : Admin c) (hfd : fd = c.s.fd) (cursor : Bytes) :
    Replied False c (handleAuth fd cursor c) := by
  unfold handleAuth
  simp only
  split
  · split
    · exact queueResponse_plain h hfd (by decide)
    · split
      · exact queueResponse_plain h hfd (by decide)
      · split
        · exact queueResponse_replied hfd (h.modify rfl rfl) rfl rfl (by decide) fun _ => id
        · have h1 := h.modify (f := fun s => { s with authFailures := s.authFailures + 1 }) rfl rfl
          split
          · exact queueResponse_replied hfd (h1.trans (h1.own.modify rfl rfl)) rfl rfl (by decide) fun _ => id
          · exact queueResponse_replied hfd h1 rfl rfl (by decide) fun _ => id
  · exact queueResponse_plain h hfd (by decide)

theorem handleStats_replied (h : Admin c) (hfd : fd = c.s.fd) : Replied False c (handleStats fd c) := by
  unfold handleStats
  split
  · exact queueResponse_plain h hfd (by decide)
  · exact queueResponse_plain h hfd (statsText_line _)

theorem handleUsers_replied (h : Admin c) (hfd : fd = c.s.fd) : Replied True c (handleUsers fd c) := by
  -- an answer of one line is as it should be where the names are plain
  have hplain : ∀ t, OneLine t → (∀ u, c.g.users = some u → u.Wf → u.Plain) →
      Replied True c (queueResponse fd t c) := fun t ht hp =>
    { queueResponse_plain h hfd ht with
      line := fun tidy ⟨u, hu, hwf, hiff⟩ =>
        iff_of_true (((queueResponse_plain h hfd ht).line tidy ⟨u, hu, hwf, hiff⟩).mpr False.elim)
          fun _ => hiff.mp (hp u hu hwf) }
  unfold handleUsers
  split
  · next hus => exact hplain _ (by decide) fun u hu => by rw [hus] at hu; cases hu
  · next u hus =>
    split
    · next h0 =>
      refine hplain _ (by decide) fun u' hu' hwf k hk => ?_
      rw [hus] at hu'
      cases hu'
      have hlen := hwf.table_length.trans h0
      rw [List.length_eq_zero_iff.mp hlen] at hk
      cases hk
    · split
      · next hlong =>
        refine hplain _ (by decide) fun u' hu' hwf => ?_
        rw [hus] at hu'
        cases hu'
        exact absurd (usersText_length hwf) (Nat.not_lt.mpr hlong)
      · have h1 := h.modify (f := fun s => { s with out := usersText u ++ [10], outSent := 0 })
          rfl rfl
        have hitem := h1.own.watched hfd opWrite
        obtain ⟨sel', he, h2⟩ := h1.own.setInterest hfd opWrite
        rw [he] at hitem
        simp only [he]
        refine ⟨h1.trans h2, rfl, rfl, rfl, List.append_ne_nil_of_right_ne_nil _ (by simp), ?_,
          fun _ => id, hitem⟩
        rintro tidy ⟨u', hu', hwf, ht⟩
        rw [hus] at hu'
        cases hu'
        exact (usersText_line hwf).trans (ht.trans (forall_const True).symm)

theorem handleUser_replied (h : Admin c) (hfd : fd = c.s.fd) (cursor : Bytes) :
    Replied False c (handleUser fd cursor c) := by
  have hset : ∀ u text, OneLine text →
      (∀ tidy, Stocked tidy c.g.users → Stocked tidy (some u)) →
      Replied False c (queueResponse fd text (setUsers u c)) := fun u text hl hn => by
    have h1 : AdminGood c (setUsers u c) := h.onGlobals rfl
    exact queueResponse_replied hfd h1 rfl rfl hl hn
  unfold handleUser
  simp only
  split
  · exact queueResponse_plain h hfd (by decide)
  · next u hus =>
    rw [hus] at hset
    split
    · exact queueResponse_plain h hfd (by decide)
    · split
      · split
        · next hname _ _ =>
          exact hset _ _ (by split <;> decide) fun _ hn => hn.add (nextToken_clean hname) _
        · exact queueResponse_plain h hfd (by decide)
      · split
        · split
          · next hname _ =>
            exact hset _ _ (by split <;> decide) fun _ hn => hn.del (nextToken_clean hname)
          · exact queueResponse_plain h hfd (by decide)
        · exact queueResponse_plain h hfd (by decide)

theorem handleConfigGet_replied (h : Admin c) (hfd : fd = c.s.fd) :
    Replied False c (handleConfigGet fd c) := by
  unfold handleConfigGet
  split
  · exact queueResponse_plain h hfd (by decide)
  · exact queueResponse_plain h hfd (configText_line _)

theorem handleConfig_replied (h : Admin c) (hfd : fd = c.s.fd) (cursor : Bytes) :
    Replied False c (handleConfig fd cursor c) := by
  unfold handleConfig
  simp only
  split
  · exact queueResponse_plain h hfd (by decide)
  · split
    · exact queueResponse_plain h hfd (by decide)
    · split
      · split
        · exact queueResponse_plain h hfd (by decide)
        · exact handleConfigGet_replied h hfd
      · split
        · split
          · split
            · exact queueResponse_plain h hfd (by decide)
            · split
              · exact queueResponse_plain h hfd (by decide)
              · next cfg' _ =>
                have h1 : AdminGood c { c with g := { c.g with config := some cfg' } } :=
                  h.onGlobals rfl
                exact queueResponse_replied hfd h1 rfl rfl (by decide) fun _ => id
          · exact queueResponse_plain h hfd (by decide)
        · exact queueResponse_plain h hfd (by decide)

/-- Every command gets exactly one response, and touches no input. -/
theorem handleLine_replied (h : Admin c) (hfd : fd = c.s.fd) (line : Bytes) :
    Replied (c.s.standing.Lists line) c (handleLine fd line c) := by
  obtain ⟨cursor, htoken, -⟩ := nextToken_line line
  unfold handleLine
  rw [htoken, show (words isspace (cstr line)).head? = command line from rfl]
  have hlists : ∀ cmd, command line = some cmd → cmd ≠ lit "USERS" → ¬c.s.standing.Lists line :=
    fun cmd hc hne hl => hne (Option.some.inj (hc.symm.trans hl.2.2))
  cases hc : command line with
  | none =>
    refine (queueResponse_plain h hfd (by decide)).other fun hl => ?_
    have hcmd := hl.2.2
    rw [hc] at hcmd
    cases hcmd
  | some cmd =>
    simp only
    split
    · next he => exact (handleAuth_replied h hfd _).other (hlists cmd hc (by rw [he]; decide))
    · split
      · next he =>
        have hother := hlists cmd hc (by rw [he]; decide)
        split
        · exact (queueResponse_plain h hfd (by decide)).other hother
        · exact (queueResponse_replied hfd (h.modify rfl rfl) rfl rfl (by decide) fun _ => id).other
            hother
      · rcases requireAuth_cases h hfd with ⟨c', he, hr, hno⟩ | ⟨he, ha, hl⟩
        · rw [he]
          exact hr.other fun hlist => hno ⟨hlist.1, hlist.2.1⟩
        · rw [he]
          simp only
          split
          · next hs => exact (handleStats_replied h hfd).other (hlists cmd hc (by rw [hs]; decide))
          · split
            · next hu =>
              rw [hu] at hc
              have hr := handleUsers_replied h hfd
              exact { hr with
                line := fun tidy ht => (hr.line tidy ht).trans
                  (forall_prop_congr (fun _ => Iff.rfl) (iff_of_true trivial ⟨ha, hl, hc⟩)) }
            · next hu =>
              have hother := hlists cmd hc hu
              split
              · exact (handleUser_replied h hfd _).other hother
              · split
                · exact (handleConfig_replied h hfd _).other hother
                · exact (queueResponse_plain h hfd (by decide)).other hother

end Mng
end Socks5d
