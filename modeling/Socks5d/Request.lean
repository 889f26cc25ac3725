import Socks5d.Relay

/-! # REQUEST refines its abstract machine

The request is parsed, and refused, resolved or connected; its reply is sent,
and opens the tunnel. -/
namespace Socks5d
open Buffer Ctx View
variable {strict : Prop}

/-! ## Handing a name over -/

/-- A job handed to the worker, with the reference that goes with it. -/
theorem Own.submit {c : SCtx} (h : Own c) {os' : OS} (hc : Called c.os os') {w : DnsWorker}
    (hw : c.g.dnsWorker = some w) {job : DnsJob} (ht : job.target = c.self)
    (hf : job.fd = c.s.clientFd) :
    Good c { c with
      s := { c.s with
        references := c.s.references + 1
        hist := c.s.hist ++ [.dnsSubmit (some w.submitted.length)] }
      os := os'
      g := { c.g with dnsWorker := some (w.enqueue job) } } where
  frame :=
    { Frame.refl c with
      foreign := fun _ _ _ _ => ⟨congrFun hc.fds _, rfl⟩
      dropped := fun _ h1 h2 => absurd h1 h2
      fresh := fun _ h1 => Or.inl h1
      os := hc.still
      g := rfl
      lives := Or.inl hc.killed
      past := ⟨[.dnsSubmit (some w.submitted.length)], [job], {
        hist := rfl
        metrics := (Past.refl c).metrics
        log := (Past.refl c).log
        dns := by rw [hw]; rfl
        jobs := by simp [ht, hf]
        submitted := rfl
        tickets := fun w' hw' => by cases hw.symm.trans hw'; rfl
        consumed := rfl }⟩ }
  own :=
    { client := ⟨h.client.1, by simpa only [hc.fds] using h.client.2⟩
      origin := fun g hg => ⟨(h.origin g hg).1, by simpa only [hc.fds] using (h.origin g hg).2⟩
      here := { h.here with
        refs := by
          have := h.here.refs
          simp only [originRefs, submissions_append, consumptions_append, submissions_cons,
            consumptions_cons, submissions_nil, consumptions_nil, Obs.submits, Obs.consumes] at this ⊢
          simp only [Bool.false_eq_true, if_false, if_true]
          omega }
      table := h.table.congr hc.fds }

/-- `request_process` hands the name over, or fails to. -/
theorem submitted_cases {c : SCtx} (h : Own c) (r : Socks5Request) :
    (∃ c1, submitted c.s.clientFd r c = (c1, false) ∧ Good c c1 ∧ c1.view = c.view) ∨
    (∃ c1 k, submitted c.s.clientFd r c = (c1, true) ∧
      Good c ((c1.modify fun s => { s with references := s.references + 1 }).note
        (.dnsSubmit c1.lastTicket)) ∧
      ((c1.modify fun s => { s with references := s.references + 1 }).note
        (.dnsSubmit c1.lastTicket)).view = c.view.note (.dnsSubmit (some k))) := by
  unfold submitted
  cases hw : c.g.dnsWorker with
  | none => exact Or.inl ⟨c, rfl, .refl h, rfl⟩
  | some w =>
    simp only [dnsWorkerSubmit]
    rcases call_cases c.os with ⟨os', e, he, hc⟩ | ⟨os', he, hc⟩
    · rw [he]
      obtain ⟨h1, hv⟩ := h.called hc
      exact Or.inl ⟨_, rfl, h1, hv⟩
    · rw [he]
      have hv : ({ c with os := os' } : SCtx).view = c.view := view_onCalls hc.fds
      have hk : ∀ job, (some (w.enqueue job)).map (fun w => w.submitted.length - 1) =
          some w.submitted.length := fun job => by simp [DnsWorker.enqueue]
      refine Or.inr ⟨_, w.submitted.length, rfl, ?_, ?_⟩
      · simp only [Ctx.lastTicket, hk]
        exact h.submit hc hw rfl rfl
      · simp only [Ctx.lastTicket, hk, ← hv]
        rfl

/-! ## The destination -/

/-- The destination of a request whose address type is known. -/
theorem storeDestination_spec {c : SCtx} (h : Own c) {r : Socks5Request}
    (ht : r.type = socksAtypIpv4 ∨ r.type = socksAtypIpv6 ∨ r.type = socksAtypFqdn) :
    ∃ c1, socks5StoreDestination r c = (c1, true) ∧ Good c c1 ∧
      c1.view = c.view.storeDest r := by
  obtain ⟨d, hd⟩ : ∃ d, storedDestination r = some d := by
    unfold storedDestination
    rcases ht with ht | ht | ht <;> rw [ht] <;> exact ⟨_, rfl⟩
  have h1 := h.modify (f := fun s => { s with
    destination := d, destinationPort := r.destPort, destinationSet := true })
    ⟨rfl, rfl, rfl, rfl, rfl, rfl⟩
  refine ⟨_, ?_, h1, ?_⟩
  · unfold socks5StoreDestination
    unfold storedDestination at hd
    simp only [hd]
  · rw [View.storeDest, hd]; rfl

/-! ## The verdict on a request -/

section Process
variable {a c : SCtx} {p : RequestParser} {rest : Bytes}

/-- What is known when `request_process` is called. -/
structure Parsed (a c : SCtx) (p : RequestParser) (rest : Bytes) : Prop where
  own : Own a
  st : a.view.st = some .requestRead
  shape : a.view.Unconnected ∧ a.view.wb = []
  good : Good a c
  view : c.view = a.view.readRequest p rest
  run : requestRun a.view.client.asRequest.parser a.view.rb = ((p, false), rest)

theorem Parsed.request (h : Parsed a c p rest) : c.s.client.asRequest.parser = p := by
  have : c.s.client = _ := congrArg View.client h.view
  rw [this]; rfl

theorem Parsed.unread (h : Parsed a c p rest) : c.s.readBuffer.unread = rest :=
  congrArg View.rb h.view

/-- A reply to the request, whatever led to it. -/
theorem Parsed.answered (h : Parsed a c p rest) {c1 : SCtx} (hg : Good a c1) {v : View}
    (hv : ∃ i, c1.view = { v with ci := i }) (hst : v.st = some .requestRead) (hw : v.wb = [])
    {reply : UInt8} {fd : Fd} (hfd : fd = c1.s.clientFd)
    (hm : ∀ t, Move strict a.view (v.answer reply t)) :
    Handled strict a .requestRead (replyAndArm reply fd c1) ∧
      Progress .requestRead (replyAndArm reply fd c1) := by
  obtain ⟨i, hv⟩ := hv
  obtain ⟨c2, he, h2, hst2, hv2⟩ := replyAndArm_spec hg.own (by rw [hv]; exact hw) reply
  rw [hfd, he]
  have hst1 : c1.s.stm = some .requestRead := (congrArg View.st hv).trans hst
  refine ⟨.enter (hg.trans h.own h2) (hst2.trans hst1) rfl (by decide) fun t => ?_,
    .advance (by decide)⟩
  rw [hv2 t, hv]
  exact .single (hm t)

end Process

theorem requestProcess_handled {a c : SCtx} {p : RequestParser} {rest : Bytes}
    (h : Parsed a c p rest)
    (hp : p.state = .errorUnsupportedCmd ∨ p.state = .errorUnsupportedAtyp ∨
      p.state = .done ∧ AtypKnown p) :
    Handled strict a .requestRead (requestProcess c.s.clientFd c) ∧
      Progress .requestRead (requestProcess c.s.clientFd c) := by
  have h1 := h.good.trans h.own (h.good.own.note
    (o := .requestProcessed c.s.readBuffer.unread) rfl)
  have hv1 : (c.note (.requestProcessed c.s.readBuffer.unread)).view =
      a.view.processRequest p rest := by
    rw [view_note, h.view, h.unread]; rfl
  have hwb : (a.view.processRequest p rest).wb = [] := h.shape.2
  unfold requestProcess
  simp only [h.request]
  generalize hc1 : c.note (.requestProcessed c.s.readBuffer.unread) = c1 at h1 hv1 ⊢
  have hfd : c.s.clientFd = c1.s.clientFd := by rw [← hc1]; rfl
  by_cases hbad : p.state = .errorUnsupportedCmd ∨ p.state = .errorUnsupportedAtyp
  · rw [if_pos hbad]
    have h2 := h1.own.setFailure (if p.state = .errorUnsupportedCmd then .unsupportedCommand
      else .unsupportedAddressType)
    refine h.answered (h1.trans h.own h2) (v := a.view.processRequest p rest)
      ⟨a.view.ci, by rw [view_setFailure, hv1]; rfl⟩ h.st hwb hfd
      fun t => .requestRefused p rest _ t h.st h.run ?_
    by_cases hcmd : p.state = .errorUnsupportedCmd
    · exact Or.inl ⟨hcmd, by simp [hcmd]⟩
    · exact Or.inr ⟨hbad.resolve_left hcmd, by simp [hcmd]⟩
  · rw [if_neg hbad]
    obtain ⟨hdone, hat⟩ : p.state = .done ∧ AtypKnown p := by tauto
    obtain ⟨c2, he2, h2, hv2⟩ := storeDestination_spec h1.own (hat (Or.inr (Or.inr hdone)))
    obtain ⟨c3, he3, h3, hv3, -⟩ := h2.own.setClientInterest opNoop
    rw [h2.frame.clientFd] at he3
    have hg3 := h1.trans h.own (h2.trans h1.own h3)
    rw [he2, hfd]
    simp only [he3]
    have hv3' : c3.view = { (a.view.processRequest p rest).storeDest p.request with
        ci := opNoop } := by rw [hv3, hv2, hv1]
    have hst3 : c3.s.stm = some .requestRead := (congrArg View.st hv3').trans h.st
    have hfd3 : c1.s.clientFd = c3.s.clientFd := (h2.trans h1.own h3).frame.clientFd.symm
    split
    · next hfq =>
      rcases submitted_cases h3.own p.request with ⟨c4, he4, h4, hv4⟩ | ⟨c4, k, he4, h4, hv4⟩
      · rw [hfd3, he4]
        have h5 := h4.own.note (o := .dnsSubmit none) rfl
        have h6 := h5.own.setFailure .dnsSubmitFailed
        refine h.answered (hg3.trans h.own (h4.trans h3.own (h5.trans h4.own h6)))
          (v := ((a.view.processRequest p rest).storeDest p.request).note (.dnsSubmit none))
          ⟨opNoop, ?_⟩ h.st hwb h4.frame.clientFd.symm
          fun t => .requestUnsubmitted p rest t h.st h.run hdone hfq
        rw [view_setFailure, view_note, hv4, hv3']; rfl
      · rw [hfd3, he4]
        have hst4 := (congrArg View.st hv4).trans hst3
        refine ⟨.enter (hg3.trans h.own h4) hst4 rfl (by decide) fun t => ?_,
          .advance (by decide)⟩
        rw [hv4, hv3']
        exact .single (.requestSubmitted p rest k t h.st h.run hdone hfq)
    · next hfq =>
      have hor3 : c3.s.originFd = none := by
        have : c3.view.originFd = a.view.originFd := by rw [hv3']; rfl
        exact this.trans h.shape.1.origin
      have hcur : c3.view.orig.asConn.current = [] := by
        obtain ⟨r, hr⟩ := h.shape.1.orig
        have : c3.view.orig = a.view.orig := by rw [hv3']; rfl
        rw [this, hr]; rfl
      refine ⟨.to hg3 hst3 (by decide) fun fd => ?_, .advance (by decide)⟩
      obtain ⟨h4, hm4, hst4, hr4⟩ := arrive_connecting h3.own hor3 (by rw [hv3']) fd
      refine ⟨h4, ?_, hst4, fun _ => hr4⟩
      rw [hcur, hv3'] at hm4
      exact .head (.requestLiteral p rest _ h.st h.run hdone hfq) hm4

theorem requestParse_handled {c : SCtx} (h : Own c) (hs : c.view.Sane)
    (hst : c.s.stm = some .requestRead) : Handled strict c .requestRead (requestParse c.s.clientFd c) ∧
      Progress .requestRead (requestParse c.s.clientFd c) := by
  have hvst : c.view.st = some .requestRead := hst
  simp only [Sane, hvst] at hs
  obtain ⟨hun, hw, -, rp, hcl, hrun, hat⟩ := hs
  have hh : c.s.client.asRequest = rp := by rw [show c.s.client = .request rp from hcl]; rfl
  have hh' : c.view.client.asRequest = rp := hh
  obtain ⟨hwf, hlim, hrest, hres⟩ := consume_spec
    h.here.rb (rp.parser, false)
  unfold requestParse requestConsume
  simp only [hh]
  generalize consume requestStep requestStop c.s.readBuffer (rp.parser, false)
    = out at hwf hlim hrest hres ⊢
  obtain ⟨rb, p, e⟩ := out
  simp only at hwf hlim hrest hres ⊢
  have h1 := h.setReadBuffer hwf (hlim.trans h.here.rbLimit)
  have h2 := h1.trans h (h1.own.setClient (.request { rp with parser := p }))
  have hrun' : requestRun rp.parser c.view.rb = ((p, e), rb.unread) :=
    Prod.ext hres.symm hrest.symm
  have hv : ((c.setReadBuffer rb).setClient (.request { rp with parser := p })).view =
      c.view.readRequest p rb.unread := by
    rw [view_setClient, view_setReadBuffer, readRequest, hh']
  generalize hc2 : (c.setReadBuffer rb).setClient (.request { rp with parser := p }) = c2 at h2 hv ⊢
  have hfd : c.s.clientFd = c2.s.clientFd := h2.frame.clientFd.symm
  have hst2 : c2.s.stm = some .requestRead := (congrArg View.st hv).trans hvst
  have hparsed : e = false → Parsed c c2 p rb.unread := fun he =>
    ⟨h, hvst, ⟨hun, hw⟩, h2, hv, by rw [hh']; rw [he] at hrun'; exact hrun'⟩
  rcases requestRun_cases hrun hat c.view.rb with
    ⟨q, hq, hd, -⟩ | ⟨q, rest, hq⟩ | ⟨q, rest, hq, hd⟩ | ⟨q, rest, hq, hd, hk⟩
  · have heq := hrun'.symm.trans hq
    simp only [Prod.mk.injEq] at heq
    obtain ⟨⟨rfl, rfl⟩, hnil⟩ := heq
    simp only [Bool.false_eq_true, if_false, hd]
    rw [hnil] at hv
    refine ⟨.stay h2 hst2 (Or.inl rfl) ?_, Or.inl ⟨rfl, fun _ => by rw [hv]; rfl⟩⟩
    rw [hv]
    exact .single (.requestMore p hvst (by rw [hh']; exact hq) hd)
  · have heq := hrun'.symm.trans hq
    simp only [Prod.mk.injEq] at heq
    obtain ⟨⟨rfl, rfl⟩, hr⟩ := heq
    simp only [if_true]
    have h3 := h2.own.setFailure .invalidRequest
    refine ⟨.enter (h2.trans h h3) hst2 rfl (by decide) fun t => ?_, .advance (by decide)⟩
    rw [view_setFailure, hv, hr]
    exact .single (.requestBad p rest t hvst (by rw [hh']; exact hq))
  · have heq := hrun'.symm.trans hq
    simp only [Prod.mk.injEq] at heq
    obtain ⟨⟨rfl, rfl⟩, -⟩ := heq
    have hdone : requestIsDone p.state = true := by rcases hd with hd | hd <;> rw [hd] <;> rfl
    simp only [Bool.false_eq_true, if_false, hdone, if_true]
    rw [hfd]
    exact requestProcess_handled (hparsed rfl) (by tauto)
  · have heq := hrun'.symm.trans hq
    simp only [Prod.mk.injEq] at heq
    obtain ⟨⟨rfl, rfl⟩, -⟩ := heq
    have hdone : requestIsDone p.state = true := by rw [hd]; rfl
    simp only [Bool.false_eq_true, if_false, hdone, if_true]
    rw [hfd]
    exact requestProcess_handled (hparsed rfl) (Or.inr (Or.inr ⟨hd, hk⟩))

theorem requestRead_handled {c : SCtx} (h : Own c) (hs : c.view.Sane)
    (hst : c.s.stm = some .requestRead) : Handled strict c .requestRead (requestRead c.s.clientFd c) ∧
      Progress .requestRead (requestRead c.s.clientFd c) :=
  read_handled h hs hst rfl (fun _ h hs hst => requestParse_handled h hs hst) rfl

/-! ## The reply -/

theorem requestSent_handled {c c1 : SCtx} (h : Own c) (hs : c.view.Sane)
    (hst : c.s.stm = some .requestWrite) (hg : Good c c1) (hv : c1.view = c.view.drained) :
    Handled strict c .requestWrite (requestSent c1.s.clientFd c1) ∧
      Progress .requestWrite (requestSent c1.s.clientFd c1) := by
  have hvst : c.view.st = some .requestWrite := hst
  have hst1 : c1.s.stm = some .requestWrite := (congrArg View.st hv).trans hst
  have hcl : c1.s.client = c.view.client := congrArg View.client hv
  simp only [Sane, hvst] at hs
  obtain ⟨-, -, -, ⟨r, hr, hiff⟩, -⟩ := hs
  have hr' : c.view.client.asRequest = r := by rw [hr]; rfl
  unfold requestSent
  rw [hcl, hr']
  by_cases hok : r.reply = replySucceeded
  · rw [if_pos hok]
    obtain ⟨c2, he, h2, hv2, -⟩ := hg.own.setClientInterest opRead
    have hg2 := hg.trans h h2
    have hst2 : c2.s.stm = some .requestWrite := (congrArg View.st hv2).trans hst1
    obtain ⟨fo, hfo⟩ := Option.ne_none_iff_exists'.mp (hiff.mp hok)
    have hor2 : c2.s.originFd = some fo := by
      have : c2.view.originFd = c.view.originFd := by rw [hv2, hv]; rfl
      exact this.trans hfo
    rw [he]
    refine ⟨.to hg2 hst2 (by decide) fun fd => ?_, .advance (by decide)⟩
    obtain ⟨h3, hset, r₁, r₂, hv3⟩ := arrive_copy h2.own hor2 (by rw [hv2]) fd
    have hstart : c2.view.startRelay c2.os.now = c.view.drained.startRelay c2.os.now := by
      rw [hv2, hv]; rfl
    rw [hstart] at hv3
    refine ⟨h3, ?_, congrArg View.st hv3, fun _ => hset⟩
    rw [hv3]
    exact .tail (.single (.relayStarted _ hvst (by rw [hr']; exact hok))) (.relaySynced r₁ r₂ rfl)
  · rw [if_neg hok]
    refine ⟨.enter hg hst1 rfl (by decide) fun t => ?_, .advance (by decide)⟩
    rw [hv]
    exact .single (.requestRefusalSent t hvst (by rw [hr']; exact hok))

theorem requestWrite_handled {c : SCtx} (h : Own c) (hs : c.view.Sane)
    (hst : c.s.stm = some .requestWrite) : Handled strict c .requestWrite (requestWrite c.s.clientFd c) ∧
      Progress .requestWrite (requestWrite c.s.clientFd c) :=
  write_handled h hs hst rfl (fun _ hg hv => requestSent_handled h hs hst hg hv) rfl

/-! ## The result of the resolution -/

/-- The result of a resolution is taken, and the reference of its job with it. -/
def resolvTaken (c : SCtx) : SCtx :=
  (c.modify fun s => { s with references := s.references - 1 }).note
    (.dnsConsumed c.s.originResolution)

theorem Own.resolvTaken {c : SCtx} (h : Own c) (hl : c.view.Ledger)
    (hst : c.s.stm = some .requestResolv) : Own (resolvTaken c) := by
  have hl : submissions c.s.hist = consumptions c.s.hist + _ := hl
  have hone : (if c.view.st = some .requestResolv then 1 else 0) = 1 := if_pos hst
  rw [hone] at hl
  have hr := h.here.refs
  refine ⟨h.client, h.origin, { h.here with refs := ?_ }, h.table⟩
  show c.s.references - 1 + consumptions (c.s.hist ++ [.dnsConsumed c.s.originResolution]) =
    1 + originRefs c.s + submissions (c.s.hist ++ [.dnsConsumed c.s.originResolution])
  simp only [submissions_append, consumptions_append, submissions_cons, consumptions_cons,
    submissions_nil, consumptions_nil, Obs.submits, Obs.consumes, Bool.false_eq_true, if_false,
    if_true]
  omega

/-- `request_resolv_done` goes on from the session whose result has been taken. -/
theorem requestResolvDone_spec {c : SCtx} (h : Own c) (hs : c.view.Sane) (hl : c.view.Ledger)
    (hst : c.s.stm = some .requestResolv) :
    Good (resolvTaken c) (requestResolvDone c.s.clientFd c).1 ∧
      (requestResolvDone c.s.clientFd c).1.s.stm = some .requestResolv ∧
      (requestResolvDone c.s.clientFd c).2 ≠ .requestResolv ∧
      Arrives strict c.view (requestResolvDone c.s.clientFd c) := by
  have hvst : c.view.st = some .requestResolv := hst
  simp only [Sane, hvst] at hs
  obtain ⟨hun, hw, hci, -⟩ := hs
  have h1 := h.resolvTaken hl hst
  have heq : requestResolvDone c.s.clientFd c =
      if (resolvTaken c).s.originResolution = [] then
        replyAndArm replyHostUnreachable c.s.clientFd
          (socks5SetFailure .dnsResolutionFailed (resolvTaken c))
      else
        ((resolvTaken c).modify fun s =>
          { s with orig := .conn { s.orig.asConn with current := s.originResolution } },
          .connecting) := rfl
  by_cases hnil : c.view.found = []
  · have hnil' : c.s.originResolution = [] := hnil
    rw [heq, if_pos (show (resolvTaken c).s.originResolution = [] from hnil)]
    have h2 := h1.setFailure .dnsResolutionFailed
    obtain ⟨c3, he, h3, hst3, hv3⟩ := replyAndArm_spec h2.own hw replyHostUnreachable
    rw [h2.frame.clientFd] at he
    have hfd : (resolvTaken c).s.clientFd = c.s.clientFd := rfl
    rw [hfd] at he
    rw [he]
    refine ⟨h2.trans h1 h3, hst3.trans hst, (by decide : SocksState.requestWrite ≠ .requestResolv), .enter h3.own rfl fun t => ?_⟩
    rw [hv3 t, view_setFailure, resolvTaken, view_note, hnil']
    exact .single (.dnsFailed t hvst hnil)
  · rw [heq, if_neg (show ¬(resolvTaken c).s.originResolution = [] from hnil)]
    have h2 := h1.modify (f := fun s => { s with
      orig := .conn { s.orig.asConn with current := s.originResolution } })
      ⟨rfl, rfl, rfl, rfl, rfl, rfl⟩
    refine ⟨h2, hst, (by decide : SocksState.connecting ≠ .requestResolv), fun fd => ?_⟩
    obtain ⟨h3, hm3, hst3, hr3⟩ := arrive_connecting h2.own hun.origin hci fd
    exact ⟨h3, .head (.dnsFound _ hvst hnil) hm3, hst3, fun _ => hr3⟩

end Socks5d
