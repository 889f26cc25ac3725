import Socks5d.Connecting

/-! # The relay refines its abstract machine

COPY: each handler receives, sends, shuts down and rearms, on the two
descriptors of its session only, and makes only relay moves. -/
namespace Socks5d
open Buffer Ctx View
variable {strict : Prop}

/-- The descriptor a direction reads from, and the one it writes to. -/
def Socks5.sourceFd (s : Socks5) : Dir → Option Fd
  | .c2o => some s.clientFd
  | .o2c => s.originFd

def Socks5.sinkFd (s : Socks5) : Dir → Option Fd
  | .c2o => s.originFd
  | .o2c => some s.clientFd

/-! ## Updates of one direction -/

theorem Own.setCopy {c : SCtx} (h : Own c) (d : Dir) (k : Copy) :
    Good c (c.modify (Socks5.setCopy d k)) := by
  cases d <;> exact h.modify ⟨rfl, rfl, rfl, rfl, rfl, rfl⟩

theorem Own.setBuf {c : SCtx} (h : Own c) (d : Dir) {b : Buffer} (hb : WF b)
    (hl : b.limit = bufferSize) : Good c (c.modify fun s => s.setBuf d b) := by
  cases d with
  | c2o => exact h.setReadBuffer hb hl
  | o2c => exact h.setWriteBuffer hb hl

@[simp] theorem view_setCopy (c : SCtx) (d : Dir) (k : Copy) :
    (c.modify (Socks5.setCopy d k)).view = c.view.setCopy d k := by cases d <;> rfl

@[simp] theorem view_setBuf (c : SCtx) (d : Dir) (b : Buffer) :
    (c.modify fun s => s.setBuf d b).view = c.view.setBuf d b.unread := by cases d <;> rfl

theorem copyOf_view (c : SCtx) (d : Dir) : c.s.copyOf d = c.view.copyOf d := by cases d <;> rfl

theorem bufOf_view (c : SCtx) (d : Dir) : (c.s.bufOf d).unread = c.view.bufOf d := by
  cases d <;> rfl

theorem Own.bufOf_wf {c : SCtx} (h : Own c) (d : Dir) :
    WF (c.s.bufOf d) ∧ (c.s.bufOf d).limit = bufferSize := by
  cases d with
  | c2o => exact ⟨h.here.rb, h.here.rbLimit⟩
  | o2c => exact ⟨h.here.wb, h.here.wbLimit⟩

@[simp] theorem setSink_sink (d : Dir) (v : View) : v.setSink d (v.sink d) = v := by
  cases d <;> rfl

@[simp] theorem setSource_source (d : Dir) (v : View) : v.setSource d (v.source d) = v := by
  cases d <;> rfl

@[simp] theorem setSink_copyOf (d d' : Dir) (k : Sock) (v : View) :
    (v.setSink d k).copyOf d' = v.copyOf d' := by cases d <;> cases d' <;> rfl

@[simp] theorem setSource_copyOf (d d' : Dir) (k : Sock) (v : View) :
    (v.setSource d k).copyOf d' = v.copyOf d' := by cases d <;> cases d' <;> rfl

@[simp] theorem setSource_bufOf (d d' : Dir) (k : Sock) (v : View) :
    (v.setSource d k).bufOf d' = v.bufOf d' := by cases d <;> cases d' <;> rfl

@[simp] theorem setSink_bufOf (d d' : Dir) (k : Sock) (v : View) :
    (v.setSink d k).bufOf d' = v.bufOf d' := by cases d <;> cases d' <;> rfl

@[simp] theorem setBuf_self (d : Dir) (v : View) : v.setBuf d (v.bufOf d) = v := by
  cases d <;> rfl

theorem View.Relaying.setCopy_copyOf {v : View} (h : v.Relaying) (d : Dir) :
    v.setCopy d (v.copyOf d) = v := by
  obtain ⟨⟨k1, hk1, -⟩, ⟨k2, hk2, -⟩, -, -⟩ := h
  cases d with
  | c2o => rw [View.setCopy, View.copyOf, hk1, ClientUnion.asCopy, ← hk1]
  | o2c => rw [View.setCopy, View.copyOf, hk2, OrigUnion.asCopy, ← hk2]

/-! ## Directions with nothing left undone -/

theorem View.Drains.of_eq {v v' : View} {d : Dir} (h : v.Drains d)
    (hc : v'.copyOf d = v.copyOf d) (hb : v'.bufOf d = v.bufOf d) : v'.Drains d := by
  unfold View.Drains; rw [hc, hb]; exact h

theorem View.Flowing.of_eq {v v' : View} (h : v.Flowing) (hc : ∀ d, v'.copyOf d = v.copyOf d)
    (hb : ∀ d, v'.bufOf d = v.bufOf d) : v'.Flowing :=
  ⟨fun d => (h.drains d).of_eq (hc d) (hb d), by rw [hc, hc]; exact h.unfinished⟩

/-- All but one direction. -/
def View.DrainsBut (d : Dir) (v : View) : Prop := ∀ d', d' ≠ d → v.Drains d'

theorem View.Flowing.but {v : View} (h : v.Flowing) (d : Dir) : v.DrainsBut d :=
  fun d' _ => h.drains d'

theorem View.DrainsBut.of_other {v v' : View} {d : Dir} (h : v.DrainsBut d)
    (hc : ∀ d', d' ≠ d → v'.copyOf d' = v.copyOf d' ∧ v'.bufOf d' = v.bufOf d') :
    v'.DrainsBut d := fun d' hd => (h d' hd).of_eq (hc d' hd).1 (hc d' hd).2

theorem setCopy_other {d d' : Dir} (h : d' ≠ d) (k : Copy) (v : View) :
    (v.setCopy d k).copyOf d' = v.copyOf d' := by cases d <;> cases d' <;> first | rfl | exact absurd rfl h

theorem setBuf_other {d d' : Dir} (h : d' ≠ d) (b : Bytes) (v : View) :
    (v.setBuf d b).bufOf d' = v.bufOf d' := by cases d <;> cases d' <;> first | rfl | exact absurd rfl h

@[simp] theorem note_copyOf (o : Obs) (d : Dir) (v : View) : (v.note o).copyOf d = v.copyOf d := by
  cases d <;> rfl

@[simp] theorem note_bufOf (o : Obs) (d : Dir) (v : View) : (v.note o).bufOf d = v.bufOf d := by
  cases d <;> rfl

@[simp] theorem synced_copyOf (r₁ r₂ : Bool) (d : Dir) (v : View) :
    (v.synced r₁ r₂).copyOf d = v.copyOf d := by cases d <;> rfl

@[simp] theorem synced_bufOf (r₁ r₂ : Bool) (d : Dir) (v : View) :
    (v.synced r₁ r₂).bufOf d = v.bufOf d := by cases d <;> rfl

/-! ## A session that relays -/

structure Relay (c : SCtx) : Prop where
  own : Own c
  st : c.s.stm = some .copy
  sane : c.view.Relaying

/-- Some of what a handler of COPY does. -/
structure Ran (strict : Prop) (c c' : SCtx) : Prop where
  good : Good c c'
  moves : Moves strict c.view c'.view
  st : c'.s.stm = some .copy

namespace Relay
variable {c : SCtx} {d : Dir} {fd : Fd}

theorem ran (h : Relay c) {c' : SCtx} (hr : Ran strict c c') : Relay c' :=
  ⟨hr.good.own, hr.st, (sane_copy hr.st).mp (hr.moves.sane ((sane_copy h.st).mpr h.sane))⟩

theorem readFd (h : Relay c) (d : Dir) : (c.s.copyOf d).readFd = c.s.sourceFd d := by
  obtain ⟨⟨k1, hk1, h1, -⟩, ⟨k2, hk2, h2, -⟩, -, -⟩ := h.sane
  cases d with
  | c2o => rw [copyOf_view, View.copyOf, hk1]; exact h1
  | o2c => rw [copyOf_view, View.copyOf, hk2]; exact h2

theorem writeFd (h : Relay c) (d : Dir) : (c.s.copyOf d).writeFd = c.s.sinkFd d := by
  obtain ⟨⟨k1, hk1, -, h1⟩, ⟨k2, hk2, -, h2⟩, -, -⟩ := h.sane
  cases d with
  | c2o => rw [copyOf_view, View.copyOf, hk1]; exact h1
  | o2c => rw [copyOf_view, View.copyOf, hk2]; exact h2

theorem origin (h : Relay c) : ∃ fd, c.s.originFd = some fd :=
  Option.isSome_iff_exists.mp h.sane.origin

theorem sinkFd_some (h : Relay c) (d : Dir) : ∃ fd, c.s.sinkFd d = some fd := by
  cases d with
  | c2o => exact h.origin
  | o2c => exact ⟨_, rfl⟩

/-- A call on the descriptor a direction reads from, or writes to. -/
theorem onSource (h : Relay c) (hfd : c.s.sourceFd d = some fd) {α : Type}
    (call : OS → Fd → OS × Except Errno α) :
    onFd (c.s.copyOf d).readFd call c =
      ({ c with os := (call c.os fd).1 }, (call c.os fd).2) := by rw [h.readFd d, hfd]; rfl

theorem onSink (h : Relay c) (hfd : c.s.sinkFd d = some fd) {α : Type}
    (call : OS → Fd → OS × Except Errno α) :
    onFd (c.s.copyOf d).writeFd call c =
      ({ c with os := (call c.os fd).1 }, (call c.os fd).2) := by rw [h.writeFd d, hfd]; rfl

theorem source_sock (h : Relay c) (hfd : c.s.sourceFd d = some fd) :
    c.os.fds fd = some (c.view.source d) := by
  cases d with
  | c2o => cases Option.some.inj hfd; exact h.own.client_sock
  | o2c => exact h.own.origin_sock hfd

theorem sink_sock (h : Relay c) (hfd : c.s.sinkFd d = some fd) :
    c.os.fds fd = some (c.view.sink d) := by
  cases d with
  | c2o => exact h.own.origin_sock hfd
  | o2c => cases Option.some.inj hfd; exact h.own.client_sock

theorem touchSource (h : Relay c) (hfd : c.s.sourceFd d = some fd) {os' : OS} {k : Sock}
    (ht : Touched c.os os' fd k) :
    Good c { c with os := os' } ∧ ({ c with os := os' } : SCtx).view = c.view.setSource d k := by
  cases d with
  | c2o => cases Option.some.inj hfd; exact h.own.touchClient ht
  | o2c => exact h.own.touchOrigin hfd ht

theorem touchSink (h : Relay c) (hfd : c.s.sinkFd d = some fd) {os' : OS} {k : Sock}
    (ht : Touched c.os os' fd k) :
    Good c { c with os := os' } ∧ ({ c with os := os' } : SCtx).view = c.view.setSink d k := by
  cases d with
  | c2o => exact h.own.touchOrigin hfd ht
  | o2c => cases Option.some.inj hfd; exact h.own.touchClient ht

theorem refl (h : Relay c) : Ran strict c c := ⟨.refl h.own, .refl, h.st⟩

/-- One move of the relay. -/
theorem step (h : Relay c) {c' : SCtx} (hg : Good c c') {v : View} (hm : Move strict c.view v)
    (hst : v.st = c.view.st) (hv : c'.view = v) : Ran strict c c' :=
  ⟨hg, hv ▸ .single hm, ((congrArg View.st hv).trans hst).trans h.st⟩

/-- A change of the session's memory that the abstract machine does not see. -/
theorem same (h : Relay c) {c' : SCtx} (hg : Good c c') (hv : c'.view = c.view) : Ran strict c c' :=
  ⟨hg, hv ▸ .refl, (congrArg View.st hv).trans h.st⟩

end Relay

/-! ## Rearming -/

theorem copyClientInterest_eq {c : SCtx} (h : Own c) :
    copyClientInterest c.s = c.view.interest .c2o c.s.readBuffer.bufferCanWrite := by
  have hw : c.s.writeBuffer.bufferCanRead = decide (c.view.wb ≠ []) := by
    rw [Bool.eq_iff_iff, decide_eq_true_eq]; exact h.here.wb.canRead_iff
  simp only [copyClientInterest, View.interest, copyOf_view, Socks5.bufOf, hw]

theorem copyOriginInterest_eq {c : SCtx} (h : Own c) :
    copyOriginInterest c.s = c.view.interest .o2c c.s.writeBuffer.bufferCanWrite := by
  have hr : c.s.readBuffer.bufferCanRead = decide (c.view.rb ≠ []) := by
    rw [Bool.eq_iff_iff, decide_eq_true_eq]; exact h.here.rb.canRead_iff
  simp only [copyOriginInterest, View.interest, copyOf_view, Socks5.bufOf, hr]

theorem copyUpdateInterests_spec {c : SCtx} (h : Own c) {fd : Fd} (hor : c.s.originFd = some fd) :
    ∃ c', copyUpdateInterests c = (c', true) ∧ Good c c' ∧ c'.s = c.s ∧
      c'.view = c.view.synced c.s.readBuffer.bufferCanWrite c.s.writeBuffer.bufferCanWrite := by
  obtain ⟨c1, he1, h1, hv1, hs1, -⟩ := h.setClientInterest (copyClientInterest c.s)
  have hor1 : c1.s.originFd = some fd := by rw [hs1]; exact hor
  obtain ⟨c2, he2, h2, hv2, hs2, -⟩ := h1.own.setOriginInterest hor1 (copyOriginInterest c1.s)
  refine ⟨c2, ?_, h1.trans h h2, hs2.trans hs1, ?_⟩
  · simp only [copyUpdateInterests, he1, hor1, he2]
  · rw [hv2, hs1, copyOriginInterest_eq h, hv1, copyClientInterest_eq h]; rfl

/-- A relay that has just been rearmed. -/
theorem settled_synced {c c' : SCtx} (h : Own c) (hst : c.s.stm = some .copy)
    (hf : c.view.Flowing) (hs : c'.s = c.s)
    (hv : c'.view = c.view.synced c.s.readBuffer.bufferCanWrite c.s.writeBuffer.bufferCanWrite) :
    Settled c' where
  rest := by
    have hvst : c'.view.st = some .copy := (congrArg View.st hv).trans hst
    unfold View.Rest
    rw [hvst, hv]
    exact hf.of_eq (fun _ => synced_copyOf _ _ _ _) fun _ => synced_bufOf _ _ _ _
  armed _ := by rw [hs, copyClientInterest_eq h, copyOriginInterest_eq h, hv]; exact ⟨rfl, rfl⟩

section Handlers
variable {c : SCtx} {d : Dir}

/-- `return copy_update_interests(key) == 0 ? COPY : ERROR;` -/
theorem copyStay_handled (h : Relay c) (hf : c.view.Flowing) :
    Handled strict c .copy (copyStay c) := by
  obtain ⟨fd, hor⟩ := h.origin
  obtain ⟨c', he, hg, hs, hv⟩ := copyUpdateInterests_spec h.own hor
  have hr : Ran strict c _ := h.step hg (.relaySynced _ _ h.st) rfl hv
  have heq : copyStay c = (c', .copy) := by simp only [copyStay, he]
  rw [heq]
  exact ⟨hr.good, hr.st, fun _ => ⟨hr.moves, fun _ => settled_synced h.own h.st hf hs hv⟩,
    fun hn => absurd rfl hn⟩

theorem broken_handled {c' : SCtx} (hr : Ran strict c c')
    (hopen : (c'.view.copyOf d).writeClosed = false) : Handled strict c .copy (c', .error) :=
  .enter hr.good hr.st rfl (by decide) fun t => hr.moves.tail (.relayBroken d t hr.st hopen)

/-- A half that has not seen its end, or has something left, is open. -/
theorem View.Relaying.open {v : View} (h : v.Relaying)
    (hd : (v.copyOf d).eof = false ∨ v.bufOf d ≠ []) : (v.copyOf d).writeClosed = false := by
  cases hc : (v.copyOf d).writeClosed with
  | false => rfl
  | true =>
    obtain ⟨he, hb⟩ := h.closed d hc
    rcases hd with hd | hd
    · rw [he] at hd; cases hd
    · exact absurd hb hd

theorem Ran.handled {a : SCtx} (ha : Own a) (hr : Ran strict a c) {r : SCtx × SocksState}
    (h : Handled strict c .copy r) : Handled strict a .copy r := h.after ha hr.good hr.moves

/-! ## Shutting a direction down -/

/-- The destination is shut for writing where the call succeeds; nothing else changes. -/
theorem shutDestination_spec (h : Relay c) (d : Dir) : ∃ c1 r,
    shutDestination d c = (c1.note (.relayShut d (shutCloses r)), shutCloses r) ∧ Good c c1 ∧
      c1.view = c.view.setSink d
        { c.view.sink d with shutWr := r.isOk || (c.view.sink d).shutWr } := by
  unfold shutDestination
  obtain ⟨fd, hfd⟩ := h.sinkFd_some d
  rw [h.onSink hfd]
  rcases shutdown_cases (h.sink_sock hfd) with ⟨os', e, hr, hc⟩ | ⟨os', hr, ht⟩
  · obtain ⟨hg, hv⟩ := h.own.called hc
    rw [hr]
    exact ⟨_, .error e, rfl, hg, hv.trans (setSink_sink d c.view).symm⟩
  · obtain ⟨hg, hv⟩ := h.touchSink hfd ht
    rw [hr]
    exact ⟨_, .ok (), rfl, hg, hv⟩

theorem copyShutdownWrite_ran (h : Relay c) (d : Dir) (hf : c.view.DrainsBut d) :
    (∃ c', copyShutdownWrite d c = (c', false) ∧ Handled strict c .copy (c', .error)) ∨
    (∃ c', copyShutdownWrite d c = (c', true) ∧ Ran strict c c' ∧ ∀ d', c'.view.Drains d') := by
  unfold copyShutdownWrite
  simp only
  split
  · next hc =>
    simp only [Bool.and_eq_true, Bool.not_eq_true'] at hc
    obtain ⟨⟨heof, hread⟩, hopen⟩ := hc
    rw [copyOf_view] at heof hopen
    have hempty : c.view.bufOf d = [] := by
      rw [← bufOf_view]; exact (h.own.bufOf_wf d).1.canRead_false.mp hread
    -- the direction counts as closed
    have hclose : ∀ c1 : SCtx, Good c c1 → ∀ shut, c1.view = c.view.setSink d
        { c.view.sink d with shutWr := shut } →
        Ran strict c ((c1.note (.relayShut d true)).modify
          (Socks5.setCopy d { c.s.copyOf d with writeClosed := true })) ∧
        ∀ d', View.Drains d' ((c1.note (.relayShut d true)).modify
          (Socks5.setCopy d { c.s.copyOf d with writeClosed := true })).view := by
      intro c1 hg shut hv
      have h1 := hg.trans h.own (hg.own.note (o := .relayShut d true) rfl)
      have h2 := h1.trans h.own (h1.own.setCopy d { c.s.copyOf d with writeClosed := true })
      have hv2 : ((c1.note (.relayShut d true)).modify
          (Socks5.setCopy d { c.s.copyOf d with writeClosed := true })).view =
          ((c.view.setCopy d { c.view.copyOf d with writeClosed := true }).setSink d
            { c.view.sink d with shutWr := shut }).note (.relayShut d true) := by
        rw [view_setCopy, view_note, hv, copyOf_view]
        cases d <;> rfl
      refine ⟨h.step h2 (.relayShut d shut h.st heof hopen hempty) (by simp) hv2, fun d' => ?_⟩
      rw [hv2]
      by_cases hd : d' = d
      · subst hd
        intro _ hw
        cases d' <;> cases hw
      · refine (hf d' hd).of_eq ?_ ?_
        · rw [note_copyOf, setSink_copyOf, setCopy_other hd]
        · rw [note_bufOf, setSink_bufOf, setCopy_bufOf]
    obtain ⟨c1, r, hr, hg, hv⟩ := shutDestination_spec h d
    rw [hr]
    cases hr : shutCloses r with
    | true => exact Or.inr ⟨_, rfl, hclose c1 hg _ hv⟩
    | false =>
      cases r with
      | ok u => cases hr
      | error e =>
        have hv : c1.view = c.view := hv.trans (setSink_sink d c.view)
        refine Or.inl ⟨_, rfl, .enter (hg.trans h.own (hg.own.note rfl))
          ((congrArg View.st hv).trans h.st) rfl (by decide) fun t => ?_⟩
        rw [view_note, hv]
        exact .single (.relayUnshut d t h.st heof hopen hempty)
  · next hc =>
    refine Or.inr ⟨c, rfl, h.refl, fun d' => ?_⟩
    by_cases hd : d' = d
    · subst hd
      intro heof hopen hnil
      refine hc ?_
      have hread : (c.s.bufOf d').bufferCanRead = false :=
        (h.own.bufOf_wf d').1.canRead_false.mpr (by rw [bufOf_view]; exact hnil)
      rw [copyOf_view, heof, hopen, hread]
      rfl
    · exact hf d' hd

theorem copyFinish_handled (h : Relay c) (d : Dir) (hf : c.view.DrainsBut d) :
    Handled strict c .copy (copyFinish d c) := by
  unfold copyFinish
  rcases copyShutdownWrite_ran h d hf with ⟨c1, he, h1⟩ | ⟨c1, he, h1, hdr⟩
  · rw [he]; exact h1
  · rw [he]
    simp only
    split
    · next hd =>
      simp only [copyIsDone, Bool.and_eq_true, copyOf_view] at hd
      exact .enter h1.good h1.st rfl (by decide) fun t =>
        h1.moves.tail (.relayDone t h1.st hd.1 hd.2)
    · next hd =>
      simp only [copyIsDone, Bool.and_eq_true, copyOf_view] at hd
      exact h1.handled h.own (copyStay_handled (h.ran h1) ⟨hdr, hd⟩)

/-! ## The two handlers -/

theorem copyReadState_eq (h : Own c) {fd : Fd} (hfd : c.s.sourceFd d = some fd) :
    copyReadState c.s fd = some d := by
  cases d with
  | c2o => cases Option.some.inj hfd; simp [copyReadState]
  | o2c =>
    have hor : c.s.originFd = some fd := hfd
    have hne : fd ≠ c.s.clientFd := fun he => h.here.origin_ne (by rw [hor, he])
    simp [copyReadState, hne, hor]

theorem copyWriteState_eq (h : Own c) {fd : Fd} (hfd : c.s.sinkFd d = some fd) :
    copyWriteState c.s fd = some d := by
  cases d with
  | o2c => cases Option.some.inj hfd; simp [copyWriteState]
  | c2o =>
    have hor : c.s.originFd = some fd := hfd
    have hne : fd ≠ c.s.clientFd := fun he => h.here.origin_ne (by rw [hor, he])
    simp [copyWriteState, hne, hor]

theorem copyReceive_handled (h : Relay c) (hf : c.view.Flowing) {fd : Fd}
    (hfd : c.s.sourceFd d = some fd) (heof : (c.view.copyOf d).eof = false) :
    Handled strict c .copy (copyReceive d c) := by
  have hb := h.own.bufOf_wf d
  unfold copyReceive
  rcases recv_cases (h.source_sock hfd) (c.s.bufOf d).bufferWritePtr with
    ⟨os', e, hr, ht⟩ | ⟨os', bs, hr, hlen, ht⟩
  · obtain ⟨hg, hv⟩ := h.touchSource hfd ht
    have hn := hg.trans h.own (hg.own.note (o := .relayRecv d none os'.now) rfl)
    have h1 : Ran strict c _ := h.step hn
      (.relayUnread d ((c.view.source d).lost || !e.again) os'.now h.st heof) (by simp)
      (by rw [view_note, hv])
    rw [h.onSource hfd, hr]
    simp only
    split
    · refine h1.handled h.own (copyStay_handled (h.ran h1) (hf.of_eq (fun d' => ?_) fun d' => ?_))
      · rw [view_note, hv, note_copyOf, setSource_copyOf]
      · rw [view_note, hv, note_bufOf, setSource_bufOf]
    · refine broken_handled (d := d) h1 ((h.ran h1).sane.open (Or.inl ?_))
      rw [view_note, hv, note_copyOf, setSource_copyOf]
      exact heof
  · obtain ⟨hg, hv⟩ := h.touchSource hfd ht
    rw [h.onSource hfd, hr]
    cases bs with
    | nil =>
      have hn := hg.trans h.own (hg.own.note (o := .relayRecv d (some 0) os'.now) rfl)
      have h1 := hn.trans h.own (hn.own.setCopy d { c.s.copyOf d with eof := true })
      have hview : ((({ c with os := os' } : SCtx).note (.relayRecv d (some 0) os'.now)).modify
          (Socks5.setCopy d { c.s.copyOf d with eof := true })).view =
          ((c.view.setCopy d { c.view.copyOf d with eof := true }).setSource d
            { c.view.source d with lost := true }).note (.relayRecv d (some 0) os'.now) := by
        rw [view_setCopy, view_note, hv, copyOf_view]
        cases d <;> simp [View.setSource, View.setCopy, View.note]
      have h2 : Ran strict c _ := h.step h1 (.relayEof d os'.now h.st heof) (by simp) hview
      refine h2.handled h.own (copyFinish_handled (h.ran h2) d
        ((hf.but d).of_other fun d' hd => ?_))
      rw [hview, note_copyOf, note_bufOf, setSource_copyOf, setSource_bufOf, setCopy_other hd,
        setCopy_bufOf]
      exact ⟨rfl, rfl⟩
    | cons b bs =>
      have hne : b :: bs ≠ [] := by simp
      have hn := hg.trans h.own (hg.own.note (o := .relayRecv d (some (b :: bs).length) os'.now) rfl)
      have h1 := hn.trans h.own (hn.own.setBuf d (hb.1.fill hlen hne) (by simp [hb.2]))
      have h2 := h1.trans h.own (h1.own.modify
        (f := fun s => { s with lastActivity := os'.now }) ⟨rfl, rfl, rfl, rfl, rfl, rfl⟩)
      have hfit : (c.view.bufOf d).length + (b :: bs).length ≤ bufferSize := by
        have := hb.1.unread_length
        have := hb.1.readLe
        have := hb.1.writeLe
        rw [bufferWritePtr, hb.2] at hlen
        rw [← bufOf_view]
        omega
      have hbuf : (((c.s.bufOf d).store (b :: bs)).bufferWriteAdv (b :: bs).length).unread =
          c.view.bufOf d ++ b :: bs := by rw [hb.1.fill_unread, bufOf_view]
      have hview : ∀ c3 : SCtx, c3 = (((({ c with os := os' } : SCtx).note
          (.relayRecv d (some (b :: bs).length) os'.now)).modify fun s =>
            s.setBuf d (((c.s.bufOf d).store (b :: bs)).bufferWriteAdv (b :: bs).length)).modify
              fun s => { s with lastActivity := os'.now }) →
          c3.view = { ((c.view.setBuf d (c.view.bufOf d ++ b :: bs)).setSource d
            { c.view.source d with rx := (c.view.source d).rx ++ b :: bs }).note
              (.relayRecv d (some (b :: bs).length) os'.now) with lastActivity := os'.now } := by
        rintro _ rfl
        show { ((({ c with os := os' } : SCtx).note _).modify fun s => s.setBuf d _).view with
          lastActivity := os'.now } = _
        rw [view_setBuf, hbuf, view_note, hv]
        cases d <;> simp [View.setSource, View.setBuf, View.note]
      have h4 : Ran strict c _ := h.step h2
        (.relayReceived d (b :: bs) os'.now h.st heof hne hfit) (by simp) (hview _ (by cases d <;> rfl))
      refine h4.handled h.own (copyFinish_handled (h.ran h4) d
        ((hf.but d).of_other fun d' hd => ?_))
      rw [hview _ (by cases d <;> rfl)]
      cases d <;> cases d' <;> first | exact ⟨rfl, rfl⟩ | exact absurd rfl hd

theorem copyRead_handled (h : Relay c) (hf : c.view.Flowing) {fd : Fd}
    (hfd : c.s.sourceFd d = some fd) (heof : (c.view.copyOf d).eof = false) :
    Handled strict c .copy (copyRead fd c) := by
  have hb := h.own.bufOf_wf d
  unfold copyRead
  rw [copyReadState_eq h.own hfd]
  simp only
  -- compaction is invisible
  obtain ⟨c1, hc1, h1, hv1, hs1⟩ : ∃ c1, c1 = (if !(c.s.bufOf d).bufferCanWrite then
      c.modify fun s => s.setBuf d (s.bufOf d).bufferCompact else c) ∧ Good c c1 ∧
      c1.view = c.view ∧ c1.s.sourceFd d = c.s.sourceFd d := by
    refine ⟨_, rfl, ?_⟩
    split
    · have h1 := h.own.setBuf d hb.1.compact ((WF.compact_limit _).trans hb.2)
      refine ⟨h1, ?_, by cases d <;> rfl⟩
      show (c.modify fun s => s.setBuf d (c.s.bufOf d).bufferCompact).view = _
      rw [view_setBuf, hb.1.compact_unread, bufOf_view, setBuf_self]
    · exact ⟨.refl h.own, rfl, rfl⟩
  rw [← hc1]
  have hr1 : Ran strict c _ := h.same h1 hv1
  have hf1 : c1.view.Flowing := by rw [hv1]; exact hf
  refine hr1.handled h.own ?_
  split
  · exact copyStay_handled (h.ran hr1) hf1
  · exact copyReceive_handled (h.ran hr1) hf1 (hs1.trans hfd) (by rw [hv1]; exact heof)

/-- A `send` that took nothing leaves the counters as they are. -/
theorem Own.noteIdle {c : SCtx} (h : Own c) (d : Dir) :
    Good c (c.note (.relaySend d (some 0))) := by
  have hid : (Obs.relaySend d (some 0)).charge = id := by
    funext m
    cases d <;> simp [Obs.charge, Metrics.metricsAddBytesC2o, Metrics.metricsAddBytesO2c]
  refine h.noted rfl rfl rfl ?_ ?_ rfl
  · rw [hid]; cases c.g.metrics <;> rfl
  · cases c.g.accessLog <;> simp

theorem copySend_handled (h : Relay c) (hf : c.view.Flowing) {fd : Fd}
    (hfd : c.s.sinkFd d = some fd) (hne : c.view.bufOf d ≠ []) :
    Handled strict c .copy (copySend d c) := by
  have hb := h.own.bufOf_wf d
  unfold copySend
  rcases send_cases (h.sink_sock hfd) (c.s.bufOf d).bufferReadPtr with
    ⟨os', e, hr, ht⟩ | ⟨os', n, hr, hlen, ht⟩
  · obtain ⟨hg, hv⟩ := h.touchSink hfd ht
    have hn := hg.trans h.own (hg.own.note (o := .relaySend d none) rfl)
    have h1 : Ran strict c _ := h.step hn
      (.relayUnsent d ((c.view.sink d).lost || !e.again) false h.st hne) (by simp)
      (by rw [view_note, hv])
    rw [h.onSink hfd, hr]
    simp only
    split
    · refine h1.handled h.own (copyStay_handled (h.ran h1) (hf.of_eq (fun d' => ?_) fun d' => ?_))
      · rw [view_note, hv, note_copyOf, setSink_copyOf]
      · rw [view_note, hv, note_bufOf, setSink_bufOf]
    · refine broken_handled (d := d) h1 ((h.ran h1).sane.open (Or.inr ?_))
      rw [view_note, hv, note_bufOf, setSink_bufOf]
      exact hne
  · obtain ⟨hg, hv⟩ := h.touchSink hfd ht
    have hlen' : n ≤ (c.view.bufOf d).length := by rw [← bufOf_view]; exact hlen
    have hsend : Move strict c.view _ := .relaySent d n ((c.view.sink d).flawless &&
      n == (c.s.bufOf d).bufferReadPtr.length) h.st hne hlen'
    rw [h.onSink hfd, hr]
    cases n with
    | zero =>
      have hview : ((({ c with os := os' } : SCtx).note (.relaySend d (some 0)))).view = _ :=
        (view_note _ _).trans (congrArg (View.note _) hv)
      have hsame : ((((c.view.setBuf d ((c.view.bufOf d).drop 0)).setCopy d
          { c.view.copyOf d with
            transferred := (c.view.copyOf d).transferred + (0 : Nat).toUInt64 })) : View) =
          c.view := by
        have h0 : (c.view.copyOf d).transferred + (0 : Nat).toUInt64 =
            (c.view.copyOf d).transferred := UInt64.add_zero _
        rw [h0, List.drop_zero, setBuf_self]
        exact h.sane.setCopy_copyOf d
      have h1 : Ran strict c _ := h.step (hg.trans h.own (hg.own.noteIdle d)) hsend (by simp) (by
        rw [hview, hsame]; rfl)
      refine h1.handled h.own (copyStay_handled (h.ran h1) (hf.of_eq (fun d' => ?_) fun d' => ?_))
      · rw [hview, note_copyOf, setSink_copyOf]
      · rw [hview, note_bufOf, setSink_bufOf]
    | succ m =>
      have hn := hg.trans h.own (hg.own.noteCounted (o := .relaySend d (some (m + 1))) rfl rfl rfl)
      have h1 := hn.trans h.own (hn.own.setBuf d (hb.1.readAdv hlen) (by simp [hb.2]))
      have h2 := h1.trans h.own (h1.own.setCopy d { c.s.copyOf d with
        transferred := (c.s.copyOf d).transferred + (m + 1).toUInt64 })
      have hview : ∀ c3 : SCtx, c3 = ((((({ c with os := os' } : SCtx).note
          (.relaySend d (some (m + 1)))).metrics (Obs.relaySend d (some (m + 1))).charge).modify
            fun s => s.setBuf d ((c.s.bufOf d).bufferReadAdv (m + 1))).modify (Socks5.setCopy d
              { c.s.copyOf d with
                transferred := (c.s.copyOf d).transferred + (m + 1).toUInt64 })) →
          c3.view = (((c.view.setBuf d ((c.view.bufOf d).drop (m + 1))).setCopy d
            { c.view.copyOf d with
              transferred := (c.view.copyOf d).transferred + (m + 1).toUInt64 }).setSink d
                { c.view.sink d with
                  tx := (c.view.sink d).tx ++ (c.view.bufOf d).take (m + 1)
                  flawless := (c.view.sink d).flawless &&
                    m + 1 == (c.s.bufOf d).bufferReadPtr.length }).note
                      (.relaySend d (some (m + 1))) := by
        rintro _ rfl
        rw [view_setCopy, view_setBuf, view_metrics, view_note, hv, hb.1.readAdv_unread,
          copyOf_view, ← bufOf_view]
        cases d <;> rfl
      have h3 : Ran strict c _ := h.step h2 hsend (by simp) (hview _ rfl)
      have h5 := h3.handled h.own (copyFinish_handled (h.ran h3) d (by
        rw [hview _ rfl]
        refine (hf.but d).of_other fun d' hd => ?_
        rw [note_copyOf, note_bufOf, setSink_copyOf, setSink_bufOf, setCopy_other hd,
          setCopy_bufOf, setBuf_copyOf, setBuf_other hd]
        exact ⟨rfl, rfl⟩))
      cases d <;> exact h5

theorem copyWrite_handled (h : Relay c) (hf : c.view.Flowing) {fd : Fd}
    (hfd : c.s.sinkFd d = some fd) : Handled strict c .copy (copyWrite fd c) := by
  unfold copyWrite
  rw [copyWriteState_eq h.own hfd]
  simp only
  split
  · exact copyFinish_handled h d (hf.but d)
  · next hread =>
    refine copySend_handled h hf hfd fun hnil => hread ?_
    rw [(h.own.bufOf_wf d).1.canRead_false.mpr (by rw [bufOf_view]; exact hnil)]
    rfl

end Handlers

/-! ## Opening the tunnel -/

theorem view_log (r : LogRecord) (c : SCtx) : (Socks5d.log r c).view = c.view.note (.logged r) := by
  have hl : (c.g.accessLog.map (· ++ [r])).isSome = c.g.accessLog.isSome := by simp
  show { c.view.note (.logged r) with logging := (c.g.accessLog.map (· ++ [r])).isSome } = _
  rw [hl]
  rfl

theorem Own.logOpen {c : SCtx} (h : Own c) :
    Good c (socks5LogOpen c) ∧ (socks5LogOpen c).view = c.view.logOpen c.os.now := by
  unfold socks5LogOpen
  simp only
  split
  · next hc =>
    refine ⟨.refl h, ?_⟩
    have hno : c.view.openRecord c.os.now = none := by
      unfold View.openRecord
      split
      · next hb =>
        obtain ⟨hl, ho⟩ : c.g.accessLog.isSome = true ∧ c.s.tunnelOpened = false := by
          simpa [Ctx.view] using hb
        have hd : ¬c.s.destinationSet = true := by
          rw [← Option.not_isSome, hl, ho] at hc
          simpa using hc
        rw [show c.view.dest = none from if_neg hd]
        rfl
      · rfl
    simp [View.logOpen, hno]
  · next hc =>
    simp only [Bool.or_eq_true, Bool.not_eq_true', not_or, Bool.not_eq_true,
      Bool.not_eq_false, Option.isNone_eq_false_iff] at hc
    have h1 := h.log (.opened c.os.now (socks5LogUser c.s) c.s.destination c.s.destinationPort)
    refine ⟨h1.trans h (h1.own.modify ⟨rfl, rfl, rfl, rfl, rfl, rfl⟩), ?_⟩
    have hyes : c.view.openRecord c.os.now = some (.opened c.os.now (socks5LogUser c.s)
        c.s.destination c.s.destinationPort) := by
      simp only [openRecord, Ctx.view, hc.1.1, hc.1.2, hc.2]
      rfl
    show { (Socks5d.log _ c).view with opened := true } = _
    rw [view_log, View.logOpen, hyes]
    simp [View.note]

/-- Entering COPY. -/
theorem arrive_copy {c : SCtx} (h : Own c) {fo : Fd} (hor : c.s.originFd = some fo)
    (hci : c.view.ci = opRead) (fd : Fd) :
    Good c (arrive .copy fd c) ∧ Settled (arrive .copy fd c) ∧ ∃ r₁ r₂,
      (arrive .copy fd c).view = (c.view.startRelay c.os.now).synced r₁ r₂ := by
  have h1 : Good c (c.modify fun s => { s with stm := some .copy }) :=
    h.modify ⟨rfl, rfl, rfl, rfl, rfl, rfl⟩
  have h2 := h1.trans h (h1.own.note (o := .entered .copy c.os.now) rfl)
  have h3 := h2.trans h (h2.own.note
    (o := .relayStart c.clientRx.length c.clientTx.length c.s.readBuffer.unread) rfl)
  have h4 := h3.trans h (h3.own.modify (f := fun s => { s with
    client := .copy ⟨some s.clientFd, s.originFd, false, false, 0⟩
    orig := .copy ⟨s.originFd, some s.clientFd, false, false, 0⟩ })
    ⟨rfl, rfl, rfl, rfl, rfl, rfl⟩)
  obtain ⟨h5, hv5⟩ := h4.own.logOpen
  obtain ⟨c5, heq, h5, hv5⟩ : ∃ c5, arrive .copy fd c = (copyUpdateInterests c5).1 ∧ Good c c5 ∧
      c5.view = c.view.startRelay c.os.now := by
    refine ⟨_, rfl, h4.trans h h5, hv5.trans ?_⟩
    have hrx : c.clientRx = c.view.cl.rx := by
      simp only [Ctx.clientRx, Ctx.clientSock, h.client_sock]; rfl
    have htx : c.clientTx = c.view.cl.tx := by
      simp only [Ctx.clientTx, Ctx.clientSock, h.client_sock]; rfl
    rw [View.startRelay, ← hci, ← hrx, ← htx]
    rfl
  have hor5 : c5.s.originFd = some fo := (congrArg View.originFd hv5).trans hor
  obtain ⟨c6, he, h6, hs6, hv6⟩ := copyUpdateInterests_spec h5.own hor5
  rw [heq, he]
  refine ⟨h5.trans h h6, settled_synced h5.own (congrArg View.st hv5) ?_ hs6 hv6, _, _,
    by rw [hv6, hv5]⟩
  rw [hv5]
  refine ⟨fun d he _ => ?_, fun hc => ?_⟩
  · cases d <;> cases he
  · cases hc.1

end Socks5d
