import Socks5d.Server

/-! # The table under the handlers

Everything a session's handlers do to the selector goes through the calls of
its interface. So a property of the table that every call keeps, every handler
keeps. -/
namespace Socks5d
open Ctx Buffer

/-- `P` is kept by every call, and does not look at the current round. -/
structure Upkeep (P : Selector → Prop) : Prop where
  register : ∀ {s : Selector} (fd : Fd) (h : Handler) (i : Interest) (data : Ptr),
    P s → P (s.selectorRegister fd h i data).1
  interest : ∀ {s : Selector} (fd : Fd) (i : Interest), P s → P (s.selectorSetInterest fd i).1
  drop : ∀ {s : Selector} {fd : Fd}, invalidFd fd = false → (s.fds fd).isSome → P s →
    P (s.dropItem fd)
  round : ∀ {s : Selector} (r w : Fd → Bool), P s → P { s with slaveR := r, slaveW := w }
  jobs : ∀ {s : Selector} (l : List Fd), P s → P { s with resolutionJobs := l }

namespace Upkeep

/-! ## The calls of a callback -/

section Calls
variable {S : Type} {P : Selector → Prop} {c c' : Ctx S} {fd : Fd}

theorem arm (hP : Upkeep P) (h : P c.sel) (fd : Fd) (i : Interest) :
    P (c.selectorSetInterest fd i).1.sel := hP.interest fd i h

theorem armed (hP : Upkeep P) {i : Interest} {st : SelectorStatus}
    (he : c.selectorSetInterest fd i = (c', st)) (h : P c.sel) : P c'.sel := by
  have hc := hP.arm h fd i
  rw [he] at hc
  exact hc

theorem unregister (hP : Upkeep P) (h : P c.sel) {onClose : Item → Ctx S → Ctx S}
    (hclose : ∀ (it : Item) (c : Ctx S), (onClose it c).sel = c.sel) (fd : Fd) :
    P (c.selectorUnregisterFd onClose fd).1.sel := by
  unfold selectorUnregisterFd
  split
  · exact h
  · next hv =>
    split
    · exact h
    · next it hi =>
      refine hP.drop (by rwa [Bool.not_eq_true] at hv) ?_ ?_
      · rw [hclose, hi]; rfl
      · rw [hclose]; exact h

end Calls

/-! ## A session's handlers -/

section Session
variable {P : Selector → Prop} {c : SCtx} {fd : Fd}

theorem fillReadBuffer_sel (fd : Fd) (c : SCtx) : (fillReadBuffer fd c).1.sel = c.sel := by
  unfold fillReadBuffer
  split
  · rfl
  · generalize hr : c.recv fd c.s.readBuffer.bufferWritePtr = r
    have hs : r.1.sel = c.sel := by rw [← hr]; rfl
    obtain ⟨c', e | bs⟩ := r
    · exact hs
    · cases bs <;> exact hs

theorem flushWriteBuffer_sel (fd : Fd) (c : SCtx) : (flushWriteBuffer fd c).1.sel = c.sel := by
  unfold flushWriteBuffer
  generalize hr : c.send fd c.s.writeBuffer.bufferReadPtr = r
  have hs : r.1.sel = c.sel := by rw [← hr]; rfl
  obtain ⟨c', e | n⟩ := r <;> exact hs

/-- A handler that reads before it does anything else. -/
theorem filled (h : P c.sel) {st : SocksState} {f : SCtx → SCtx × SocksState}
    (hf : ∀ c : SCtx, P c.sel → P (f c).1.sel) :
    P (match fillReadBuffer fd c with
      | (c, .again) => (c, st)
      | (c, .fail) => (c, .error)
      | (c, .ready) => f c).1.sel := by
  have hs : P (fillReadBuffer fd c).1.sel := by rw [fillReadBuffer_sel]; exact h
  generalize fillReadBuffer fd c = r at hs ⊢
  obtain ⟨c', r⟩ := r
  cases r with
  | ready => exact hf c' hs
  | _ => exact hs

theorem flushed (h : P c.sel) {st : SocksState} {f : SCtx → SCtx × SocksState}
    (hf : ∀ c : SCtx, P c.sel → P (f c).1.sel) :
    P (match flushWriteBuffer fd c with
      | (c, .fail) => (c, SocksState.error)
      | (c, .pending) => (c, st)
      | (c, .drained) => f c).1.sel := by
  have hs : P (flushWriteBuffer fd c).1.sel := by rw [flushWriteBuffer_sel]; exact h
  generalize flushWriteBuffer fd c = r at hs ⊢
  obtain ⟨c', r⟩ := r
  cases r with
  | drained => exact hf c' hs
  | _ => exact hs

theorem helloRead (hP : Upkeep P) (h : P c.sel) : P (helloRead fd c).1.sel := by
  refine filled h fun c h => ?_
  unfold helloParse
  dsimp only
  split
  · exact h
  · split
    · split
      · next he =>
        unfold helloProcess
        dsimp only
        split <;> exact (hP.armed he h :)
      · next he => exact (hP.armed he h :)
    · exact h

theorem helloWrite (hP : Upkeep P) (h : P c.sel) : P (helloWrite fd c).1.sel := by
  refine flushed h fun c h => ?_
  unfold helloSent
  dsimp only
  split
  · exact h
  · split <;> next he => exact (hP.armed he h :)

theorem authRead (hP : Upkeep P) (h : P c.sel) : P (authRead fd c).1.sel := by
  refine filled h fun c h => ?_
  unfold authParse
  dsimp only
  split
  · exact h
  · split
    · split
      · next he =>
        unfold authProcess
        dsimp only
        split <;> (split <;> exact (hP.armed he h :))
      · next he => exact (hP.armed he h :)
    · exact h

theorem authWrite (hP : Upkeep P) (h : P c.sel) : P (authWrite fd c).1.sel := by
  refine flushed h fun c h => ?_
  unfold authSent
  split <;> next he => exact (hP.armed he h :)

theorem marshalReply_sel (reply : UInt8) (c : SCtx) : (marshalReply reply c).1.sel = c.sel := by
  unfold marshalReply
  dsimp only
  split <;> rfl

theorem replyAndArm (hP : Upkeep P) (h : P c.sel) (reply : UInt8) :
    P (replyAndArm reply fd c).1.sel := by
  unfold Socks5d.replyAndArm
  have hs : P (marshalReply reply c).1.sel := by rw [marshalReply_sel]; exact h
  split
  · next he => rw [he] at hs; exact hs
  · next he =>
    rw [he] at hs
    split <;> next he' => exact (hP.armed he' hs :)

theorem submitted_sel (r : Socks5Request) (c : SCtx) : (submitted fd r c).1.sel = c.sel := by
  unfold submitted
  split
  · rfl
  · unfold dnsWorkerSubmit
    split <;> rfl

theorem storeDestination_sel (r : Socks5Request) (c : SCtx) :
    (socks5StoreDestination r c).1.sel = c.sel := by
  unfold socks5StoreDestination
  dsimp only
  split <;> rfl

/-- What a step that leaves the table alone hands on. -/
theorem same {α : Type} {r : SCtx × α} {c' : SCtx} {a : α} (hr : r.1.sel = c.sel) (he : r = (c', a))
    (h : P c.sel) : P c'.sel := by
  rw [he] at hr
  rw [hr]
  exact h

theorem requestProcess (hP : Upkeep P) (h : P c.sel) : P (requestProcess fd c).1.sel := by
  unfold Socks5d.requestProcess
  dsimp only
  split
  · refine hP.replyAndArm ?_ _
    exact h
  · split
    · next he => exact (same (storeDestination_sel _ _) he h :)
    · next he =>
      have h1 := same (storeDestination_sel _ _) he h
      split
      · next he1 =>
        have h2 := hP.armed he1 h1
        split
        · split
          · next he2 =>
            refine hP.replyAndArm ?_ _
            exact (same (submitted_sel _ _) he2 h2 :)
          · next he2 => exact (same (submitted_sel _ _) he2 h2 :)
        · exact h2
      · next he1 => exact (hP.armed he1 h1 :)

theorem requestRead (hP : Upkeep P) (h : P c.sel) : P (requestRead fd c).1.sel := by
  refine filled h fun c h => ?_
  unfold requestParse
  dsimp only
  split
  · exact h
  · split
    · exact hP.requestProcess h
    · exact h

theorem requestResolvDone (hP : Upkeep P) (h : P c.sel) : P (requestResolvDone fd c).1.sel := by
  unfold Socks5d.requestResolvDone
  dsimp only
  split
  · refine hP.replyAndArm ?_ _
    exact h
  · exact h

theorem requestWrite (hP : Upkeep P) (h : P c.sel) : P (requestWrite fd c).1.sel := by
  refine flushed h fun c h => ?_
  unfold requestSent
  split
  · split <;> next he => exact (hP.armed he h :)
  · exact h

/-! Connecting -/

theorem connectingTryOne_sel (c : SCtx) : (connectingTryOne c).1.sel = c.sel := by
  unfold connectingTryOne
  repeat' (first | rfl | split)

theorem connectingRegisterOrigin (hP : Upkeep P) (h : P c.sel) :
    P (connectingRegisterOrigin c).1.sel := by
  unfold Socks5d.connectingRegisterOrigin
  dsimp only
  split
  · exact h
  · next fd _ =>
    have h1 := hP.register fd .socks5 opWrite c.self h
    split <;> next he => rw [he] at h1; exact h1

theorem connectingOpen (hP : Upkeep P) (h : P c.sel) (a : SockAddr) :
    P (connectingOpen a c).1.sel := by
  unfold Socks5d.connectingOpen
  have h1 : P (connectingTryOne c).1.sel := by rw [connectingTryOne_sel]; exact h
  split
  · next he => rw [he] at h1; exact h1
  · next c1 he =>
    rw [he] at h1
    exact hP.connectingRegisterOrigin
      (c := c1.modify fun s => { s with references := s.references + 1 }) h1

theorem connectFailed (hP : Upkeep P) (h : P c.sel) : P (connectFailed c).sel := hP.interest _ _ h

/-- What one attempt leaves the rest of the handler with. -/
theorem opened (hP : Upkeep P) {a : SockAddr} {c' : SCtx} {r : Except Errno Bool}
    (he : Socks5d.connectingOpen a c = (c', r)) (h : P c.sel) : P c'.sel := by
  have h1 := hP.connectingOpen h a
  rw [he] at h1
  exact h1

theorem tryAddrinfo (hP : Upkeep P) (l : List SockAddr) (h : P c.sel) : P (tryAddrinfo l c).sel := by
  induction l generalizing c with
  | nil => exact hP.connectFailed h
  | cons ai rest ih =>
    unfold Socks5d.tryAddrinfo
    split
    · next he => exact (hP.opened he h :)
    · next he => exact hP.connectFailed (hP.opened he h :)
    · next he => exact ih (hP.opened he h :)

theorem connectingInit (hP : Upkeep P) (h : P c.sel) : P (connectingInit fd c).sel := by
  unfold Socks5d.connectingInit connectingStart
  dsimp only
  split
  · exact hP.tryAddrinfo _ h
  · split
    · next he => exact (hP.opened he h :)
    · next he => exact hP.connectFailed (hP.opened he h :)
    · next he => exact hP.connectFailed (hP.opened he h :)

theorem socksClose_sel (it : Item) (c : SCtx) : (socksClose it c).sel = c.sel := by
  unfold socksClose
  split
  · split
    · unfold socks5Destroy
      dsimp only
      split
      · split <;> rfl
      · rfl
    · rfl
  · rfl
  · rfl
  · rfl

theorem dropOrigin (hP : Upkeep P) (h : P c.sel) : P (dropOrigin c).sel := by
  unfold Socks5d.dropOrigin
  split
  · exact h
  · exact hP.unregister h socksClose_sel _

theorem connectingDone (hP : Upkeep P) (h : P c.sel) : P (connectingDone fd c).1.sel := by
  unfold Socks5d.connectingDone
  have h1 : P (Socks5d.replyAndArm replySucceeded c.s.clientFd
      (c.metrics Metrics.metricsOriginOk)).1.sel := by
    refine hP.replyAndArm ?_ _
    exact h
  split
  · next he =>
    rw [he] at h1
    split <;> next he' => exact (hP.armed he' h1 :)
  · next he => rw [he] at h1; exact h1

theorem connectingRetry (hP : Upkeep P) (h : P c.sel) (e : Errno) :
    P (connectingRetry e c).1.sel := by
  unfold Socks5d.connectingRetry
  have h1 : P (Socks5d.dropOrigin
      (setConn (fun cn => { cn with reply := errnoToSocksReply e }) c)).sel := by
    refine hP.dropOrigin ?_
    exact h
  dsimp only
  split
  · exact hP.tryAddrinfo _ h1
  · refine hP.replyAndArm ?_ _
    exact h1

theorem connectingWrite (hP : Upkeep P) (h : P c.sel) : P (connectingWrite fd c).1.sel := by
  unfold Socks5d.connectingWrite
  split
  · dsimp only
    split <;> next he => exact (same (marshalReply_sel _ _) he h :)
  · split
    · next he =>
      refine hP.connectingDone ?_
      exact (same (c := c) rfl he h :)
    · next he =>
      refine hP.connectingRetry ?_ _
      exact (same (c := c) rfl he h :)

theorem connectingTimeout (hP : Upkeep P) (h : P c.sel) : P (connectingTimeout c).sel :=
  hP.interest _ _ (hP.dropOrigin h)

/-! The relay -/

theorem copyShutdownWrite_sel (d : Dir) (c : SCtx) : (copyShutdownWrite d c).1.sel = c.sel := by
  have hon : (shutDestination d c).1.sel = c.sel := by
    unfold shutDestination onFd
    split <;> rfl
  unfold copyShutdownWrite
  dsimp only
  split
  · generalize shutDestination d c = r at hon ⊢
    obtain ⟨c', _ | _⟩ := r <;> exact hon
  · rfl

theorem copyStay (hP : Upkeep P) (h : P c.sel) : P (copyStay c).1.sel := by
  have hu : P (copyUpdateInterests c).1.sel := by
    unfold copyUpdateInterests
    split
    · next he =>
      have h1 := hP.armed he h
      split
      · exact h1
      · split <;> next he' => exact (hP.armed he' h1 :)
    · next he => exact (hP.armed he h :)
  unfold Socks5d.copyStay
  split <;> next he => exact (same (c := (copyUpdateInterests c).1) rfl he hu :)

theorem copyFinish (hP : Upkeep P) (d : Dir) (h : P c.sel) : P (copyFinish d c).1.sel := by
  unfold Socks5d.copyFinish
  split
  · next he => exact (same (copyShutdownWrite_sel d c) he h :)
  · next he =>
    have h1 := same (copyShutdownWrite_sel d c) he h
    split
    · exact h1
    · exact hP.copyStay h1

theorem copyInit (hP : Upkeep P) (h : P c.sel) : P (copyInit fd c).sel := by
  have hlog : ∀ c : SCtx, (socks5LogOpen c).sel = c.sel := fun c => by
    unfold socks5LogOpen
    dsimp only
    split <;> rfl
  have hu : ∀ c : SCtx, P c.sel → P (copyUpdateInterests c).1.sel := fun c h => by
    have hs := hP.copyStay h
    unfold Socks5d.copyStay at hs
    generalize copyUpdateInterests c = r at hs ⊢
    obtain ⟨c', b⟩ := r
    cases b <;> exact hs
  refine hu _ ?_
  rw [hlog]
  exact h

theorem copyReceive (hP : Upkeep P) (d : Dir) (h : P c.sel) : P (copyReceive d c).1.sel := by
  have hon : (onFd (c.s.copyOf d).readFd
      (fun os fd => os.recv fd (c.s.bufOf d).bufferWritePtr) c).1.sel = c.sel := by
    unfold onFd
    split <;> rfl
  unfold Socks5d.copyReceive
  split
  · next he =>
    have h1 := same hon he h
    dsimp only
    split
    · exact hP.copyStay h1
    · exact h1
  · next he =>
    refine hP.copyFinish d ?_
    exact (same hon he h :)
  · next he =>
    refine hP.copyFinish d ?_
    exact (same hon he h :)

theorem copyRead (hP : Upkeep P) (h : P c.sel) : P (copyRead fd c).1.sel := by
  unfold Socks5d.copyRead
  split
  · exact h
  · next d _ =>
    have hrest : ∀ c : SCtx, P c.sel →
        P (if !(c.s.bufOf d).bufferCanWrite then Socks5d.copyStay c
          else Socks5d.copyReceive d c).1.sel := by
      intro c h
      split
      · exact hP.copyStay h
      · exact hP.copyReceive d h
    refine hrest (if !(c.s.bufOf d).bufferCanWrite then
      c.modify fun s => s.setBuf d (s.bufOf d).bufferCompact else c) ?_
    split <;> exact h

theorem copySend (hP : Upkeep P) (d : Dir) (h : P c.sel) : P (copySend d c).1.sel := by
  have hon : (onFd (c.s.copyOf d).writeFd
      (fun os fd => os.send fd (c.s.bufOf d).bufferReadPtr) c).1.sel = c.sel := by
    unfold onFd
    split <;> rfl
  unfold Socks5d.copySend
  split
  · next he =>
    have h1 := same hon he h
    dsimp only
    split
    · exact hP.copyStay h1
    · exact h1
  · next he =>
    refine hP.copyStay ?_
    exact (same hon he h :)
  · next he =>
    refine hP.copyFinish d ?_
    cases d <;> exact (same hon he h :)

theorem copyWrite (hP : Upkeep P) (h : P c.sel) : P (copyWrite fd c).1.sel := by
  unfold Socks5d.copyWrite
  split
  · exact h
  · split
    · exact hP.copyFinish _ h
    · exact hP.copySend _ h

end Session

/-! ## The callbacks of a session -/

/-- What every hook and handler of a table keeps, the engine keeps. -/
theorem stmHandler_keeps {C S : Type} [DecidableEq S] {m : StateMachine C S} {Q : C → Prop}
    (hset : ∀ st c, Q c → Q (m.setCurrent st c)) (habort : ∀ c, Q c → Q (m.abort c))
    (harrive : ∀ st f, (m.states st).onArrival = some f → ∀ fd c, Q c → Q (f fd c))
    (hdepart : ∀ st f, (m.states st).onDeparture = some f → ∀ fd c, Q c → Q (f fd c))
    {event : StateDefinition C S → Option (Fd → C → C × S)}
    (hevent : ∀ st f, event (m.states st) = some f → ∀ fd c, Q c → Q (f fd c).1)
    {fd : Fd} {c : C} (h : Q c) : Q (m.stmHandler event fd c).1 := by
  have hhook : ∀ (o : Option (Fd → C → C)), (∀ f, o = some f → ∀ fd c, Q c → Q (f fd c)) →
      ∀ c, Q c → Q (StateMachine.runHook o fd c) := by
    intro o ho c hc
    cases o with
    | none => exact hc
    | some f => exact ho f rfl fd c hc
  have hfirst : Q (m.handleFirst fd c) := by
    unfold StateMachine.handleFirst
    split
    · exact h
    · exact hhook _ (harrive _) _ (hset _ _ h)
  have hjump : ∀ st c, Q c → Q (m.jump st fd c) := by
    intro st c hc
    unfold StateMachine.jump
    split
    · exact hc
    · dsimp only
      split
      · exact hhook _ (harrive _) _ (hset _ _ (hhook _ (hdepart _) _ hc))
      · exact hhook _ (harrive _) _ (hset _ _ hc)
  unfold StateMachine.stmHandler
  dsimp only
  split
  · exact habort _ hfirst
  · next f he => exact hjump _ _ (hevent _ f he fd _ hfirst)

section Machine
variable {P : Selector → Prop} {c : SCtx} {fd : Fd}

theorem handler (hP : Upkeep P)
    {event : StateDefinition SCtx SocksState → Option (Fd → SCtx → SCtx × SocksState)}
    (hevent : ∀ st f, event (clientStatbl st) = some f → ∀ fd c, P c.sel → P (f fd c).1.sel)
    (h : P c.sel) : P (sessionStm.stmHandler event fd c).1.sel := by
  refine stmHandler_keeps (Q := fun c : SCtx => P c.sel) (fun _ _ h => h) (fun _ h => h) ?_ ?_
    hevent h
  · intro st f hf fd c h
    cases st <;> cases hf
    · exact h
    · exact h
    · exact h
    · exact hP.connectingInit h
    · exact hP.copyInit h
  · intro st f hf
    cases st <;> cases hf

theorem handlerRead (hP : Upkeep P) (h : P c.sel) : P (sessionStm.stmHandlerRead fd c).1.sel := by
  refine hP.handler (fun st f hf fd c h => ?_) h
  cases st <;> cases hf
  · exact hP.helloRead h
  · exact hP.authRead h
  · exact hP.requestRead h
  · exact hP.copyRead h

theorem handlerWrite (hP : Upkeep P) (h : P c.sel) :
    P (sessionStm.stmHandlerWrite fd c).1.sel := by
  refine hP.handler (fun st f hf fd c h => ?_) h
  cases st <;> cases hf
  · exact hP.helloWrite h
  · exact hP.authWrite h
  · exact hP.connectingWrite h
  · exact hP.requestWrite h
  · exact hP.copyWrite h

theorem handlerBlock (hP : Upkeep P) (h : P c.sel) :
    P (sessionStm.stmHandlerBlock fd c).1.sel := by
  refine hP.handler (fun st f hf fd c h => ?_) h
  cases st <;> cases hf
  exact hP.requestResolvDone h

theorem pumpLoop (hP : Upkeep P) (n : Nat) (st : SocksState) (h : P c.sel) :
    P (pumpLoop fd n c st).1.sel := by
  induction n generalizing c st with
  | zero => exact h
  | succ n ih =>
    unfold Socks5d.pumpLoop
    dsimp only
    split
    · exact ih _ (hP.handlerRead h)
    · split
      · split
        · exact hP.handlerWrite h
        · exact ih _ (hP.handlerWrite h)
      · exact h

theorem noteFailure_sel (reason : FailureReason) (r : SCtx × SocksState) :
    (noteFailure reason r).1.sel = r.1.sel := by
  unfold noteFailure
  dsimp only
  split <;> rfl

theorem socksv5Read (hP : Upkeep P) (h : P c.sel) : P (socksv5Read fd c).1.sel := by
  unfold Socks5d.socksv5Read
  dsimp only
  rw [noteFailure_sel]
  exact hP.pumpLoop _ _ (hP.handlerRead h)

theorem socksv5Write (hP : Upkeep P) (h : P c.sel) : P (socksv5Write fd c).1.sel := by
  unfold Socks5d.socksv5Write
  dsimp only
  rw [noteFailure_sel]
  exact hP.pumpLoop _ _ (hP.handlerWrite h)

theorem socksv5Block (hP : Upkeep P) (h : P c.sel) : P (socksv5Block fd c).1.sel := by
  unfold Socks5d.socksv5Block
  rw [noteFailure_sel]
  exact hP.handlerBlock h

end Machine

end Upkeep
end Socks5d
