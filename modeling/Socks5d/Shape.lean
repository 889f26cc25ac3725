import Socks5d.View

/-! # The shape of a session

Which member of each union is in use, what is queued, and what the selector
watches, in every state. Every move keeps it. -/
namespace Socks5d
open Lib.Incremental
variable {strict : Prop}

/-! ## Verdicts of the parsers -/

/-- A parser's error flag is up exactly in its error state. -/
def HelloVerdict (s : HelloParser Offers × Bool) : Prop := s.2 = true ↔ s.1.state = .error
def AuthVerdict (s : AuthParser × Bool) : Prop := s.2 = true ↔ s.1.state = .error
def RequestVerdict (s : RequestParser × Bool) : Prop := s.2 = true ↔ s.1.state = .error

theorem helloStep_verdict {s : HelloParser Offers × Bool} (b : UInt8) (hs : helloStop s = false)
    (h : HelloVerdict s) : HelloVerdict (helloStep (some onHelloMethod) s b) := by
  obtain ⟨p, e⟩ := s
  simp only [HelloVerdict, helloStop, Bool.or_eq_false_iff, beq_eq_false_iff_ne] at h hs ⊢
  unfold helloStep
  cases hp : p.state with
  | done => exact absurd hp hs.1
  | error => exact absurd hp hs.2
  | version => simp only [hp, reduceCtorEq, iff_false] at h ⊢; split <;> simp [h]
  | nmethods => simp only [hp, reduceCtorEq, iff_false] at h ⊢; split <;> simp [h]
  | methods =>
    simp only [hp, reduceCtorEq, iff_false] at h ⊢
    split
    · simp [h]
    · simp only [h, reduceCtorEq]

theorem authStep_verdict {s : AuthParser × Bool} (b : UInt8) (hs : authStop s = false)
    (h : AuthVerdict s) : AuthVerdict (authStep s b) := by
  obtain ⟨p, e⟩ := s
  simp only [AuthVerdict, authStop, Bool.or_eq_false_iff, beq_eq_false_iff_ne] at h hs ⊢
  unfold authStep
  cases hp : p.state with
  | done => exact absurd hp hs.1
  | error => exact absurd hp hs.2
  | ver | ulen | plen => simp only [hp, reduceCtorEq, iff_false] at h ⊢; split <;> simp [h]
  | uname | passwd =>
    simp only [hp, reduceCtorEq, iff_false] at h ⊢
    split
    · simp [h]
    · simp only [h, reduceCtorEq]

theorem countDown_state (p : RequestParser) :
    p.countDown.state = .dstPort ∨ p.countDown.state = p.state := by
  unfold RequestParser.countDown
  simp only
  split
  · exact Or.inl rfl
  · exact Or.inr rfl

@[simp] theorem putAddr_state (p : RequestParser) (b : UInt8) : (p.putAddr b).state = p.state := rfl
@[simp] theorem putAddr_type (p : RequestParser) (b : UInt8) :
    (p.putAddr b).request.type = p.request.type := rfl

@[simp] theorem countDown_request (p : RequestParser) : p.countDown.request = p.request := by
  unfold RequestParser.countDown
  simp only
  split <;> rfl

theorem requestStep_verdict {s : RequestParser × Bool} (b : UInt8) (hs : requestStop s = false)
    (h : RequestVerdict s) : RequestVerdict (requestStep s b) := by
  obtain ⟨p, e⟩ := s
  simp only [RequestVerdict, requestStop] at h hs ⊢
  unfold requestStep
  cases hp : p.state with
  | done | error | errorUnsupportedAtyp | errorUnsupportedCmd => rw [hp] at hs; cases hs
  | version | cmd => simp only [hp, reduceCtorEq, iff_false] at h ⊢; split <;> simp [h]
  | rsv => simp only [hp, reduceCtorEq, iff_false] at h ⊢; simp [h]
  | dstPort => simp only [hp, reduceCtorEq, iff_false] at h ⊢; split <;> simp [h]
  | atyp => simp only [hp, reduceCtorEq, iff_false] at h ⊢; split_ifs <;> simp [h]
  | dstAddr =>
    have hc : ∀ q : RequestParser, q.state = .dstAddr → q.countDown.state ≠ .error := by
      intro q hq
      rcases countDown_state q with h1 | h1
      · rw [h1]; simp
      · rw [h1, hq]; simp
    simp only [hp, reduceCtorEq, iff_false] at h ⊢
    split
    · split <;> simp [h]
    · split
      · simp [h, hc _ ((putAddr_state p b).trans hp)]
      · split
        · simp [h, hc _ ((putAddr_state p b).trans hp)]
        · split
          · simp
          · simp only [h, Bool.false_eq_true, false_iff]
            refine hc _ ?_
            split <;> simp [hp]

/-- Past the address type, the type is one of the three. -/
def AtypKnown (p : RequestParser) : Prop :=
  p.state = .dstAddr ∨ p.state = .dstPort ∨ p.state = .done →
    p.request.type = socksAtypIpv4 ∨ p.request.type = socksAtypIpv6 ∨ p.request.type = socksAtypFqdn

theorem AtypKnown.of_state {p q : RequestParser} (h : AtypKnown p) (hp : p.state = .dstAddr)
    (ht : q.request.type = p.request.type) : AtypKnown q := fun _ => by
  rw [ht]; exact h (Or.inl hp)

theorem requestStep_atypKnown {s : RequestParser × Bool} (b : UInt8) (h : AtypKnown s.1) :
    AtypKnown (requestStep s b).1 := by
  obtain ⟨p, e⟩ := s
  simp only at h
  unfold requestStep
  cases hp : p.state with
  | done | error | errorUnsupportedAtyp | errorUnsupportedCmd => simpa only [hp] using h
  | version | cmd => simp only [hp]; split <;> simp [AtypKnown]
  | rsv => simp [hp, AtypKnown]
  | atyp =>
    simp only [hp]
    split_ifs with h1 h2 h3
    · simp [AtypKnown, h1]
    · simp [AtypKnown, h2]
    · simp [AtypKnown, h3]
    · simp [AtypKnown]
  | dstPort =>
    have ht := h (Or.inr (Or.inl hp))
    simp only [hp]
    split <;> exact fun _ => ht
  | dstAddr =>
    simp only [hp]
    split
    · split <;> exact h.of_state hp rfl
    · split
      · exact h.of_state hp (by simp)
      · split
        · exact h.of_state hp (by simp)
        · split
          · exact h.of_state hp rfl
          · refine h.of_state hp ?_
            split <;> simp

theorem helloRun_verdict {p : HelloParser Offers} (hp : helloStop (p, false) = false) (bs : Bytes) :
    HelloVerdict (helloRun p bs).1 :=
  feed_induction (fun s b => helloStep_verdict b) bs (p, false) hp (by
    simp only [helloStop, Bool.or_eq_false_iff, beq_eq_false_iff_ne] at hp
    simp [HelloVerdict, hp.2])

/-- What a run of the HELLO parser from a parser at work ends in. -/
theorem helloRun_cases {p : HelloParser Offers} (hp : helloStop (p, false) = false) (bs : Bytes) :
    (∃ q, helloRun p bs = ((q, false), []) ∧ helloIsDone q.state = false ∧
      helloStop (q, false) = false) ∨
    (∃ q rest, helloRun p bs = ((q, true), rest)) ∨
    (∃ q rest, helloRun p bs = ((q, false), rest) ∧ q.state = .done) := by
  have hv := helloRun_verdict hp bs
  have hr : helloStop (helloRun p bs).1 = false → (helloRun p bs).2 = [] :=
    feed_rest_nil bs (p, false)
  generalize helloRun p bs = r at hv hr ⊢
  obtain ⟨⟨q, e⟩, rest⟩ := r
  cases e with
  | true => exact Or.inr (Or.inl ⟨q, rest, rfl⟩)
  | false =>
    simp only [HelloVerdict, Bool.false_eq_true, false_iff] at hv
    cases hs : q.state with
    | done => exact Or.inr (Or.inr ⟨q, rest, rfl, hs⟩)
    | error => exact absurd hs hv
    | version | nmethods | methods =>
      have hstop : helloStop (q, false) = false := by simp [helloStop, hs]
      have hrest : rest = [] := hr hstop
      exact Or.inl ⟨q, by rw [hrest], by simp [helloIsDone, hs], hstop⟩

theorem authRun_cases {p : AuthParser} (hp : authStop (p, false) = false) (bs : Bytes) :
    (∃ q, authRun p bs = ((q, false), []) ∧ authIsDone q.state = false ∧
      authStop (q, false) = false) ∨
    (∃ q rest, authRun p bs = ((q, true), rest)) ∨
    (∃ q rest, authRun p bs = ((q, false), rest) ∧ q.state = .done) := by
  have hv : AuthVerdict (authRun p bs).1 :=
    feed_induction (fun s b => authStep_verdict b) bs (p, false) hp (by
      simp only [authStop, Bool.or_eq_false_iff, beq_eq_false_iff_ne] at hp
      simp [AuthVerdict, hp.2])
  have hr : authStop (authRun p bs).1 = false → (authRun p bs).2 = [] :=
    feed_rest_nil bs (p, false)
  generalize authRun p bs = r at hv hr ⊢
  obtain ⟨⟨q, e⟩, rest⟩ := r
  cases e with
  | true => exact Or.inr (Or.inl ⟨q, rest, rfl⟩)
  | false =>
    simp only [AuthVerdict, Bool.false_eq_true, false_iff] at hv
    cases hs : q.state with
    | done => exact Or.inr (Or.inr ⟨q, rest, rfl, hs⟩)
    | error => exact absurd hs hv
    | ver | ulen | uname | plen | passwd =>
      have hstop : authStop (q, false) = false := by simp [authStop, hs]
      have hrest : rest = [] := hr hstop
      exact Or.inl ⟨q, by rw [hrest], by simp [authIsDone, hs], hstop⟩

theorem requestRun_cases {p : RequestParser} (hp : requestStop (p, false) = false)
    (ha : AtypKnown p) (bs : Bytes) :
    (∃ q, requestRun p bs = ((q, false), []) ∧ requestIsDone q.state = false ∧ AtypKnown q) ∨
    (∃ q rest, requestRun p bs = ((q, true), rest)) ∨
    (∃ q rest, requestRun p bs = ((q, false), rest) ∧
      (q.state = .errorUnsupportedCmd ∨ q.state = .errorUnsupportedAtyp)) ∨
    (∃ q rest, requestRun p bs = ((q, false), rest) ∧ q.state = .done ∧ AtypKnown q) := by
  have hv : RequestVerdict (requestRun p bs).1 :=
    feed_induction (fun s b => requestStep_verdict b) bs (p, false) hp (by
      simp only [RequestVerdict, Bool.false_eq_true, false_iff]
      intro he
      rw [requestStop, he] at hp; cases hp)
  have hk : AtypKnown (requestRun p bs).1.1 :=
    feed_induction (P := fun s => AtypKnown s.1) (fun s b _ => requestStep_atypKnown b) bs
      (p, false) hp ha
  have hr : requestStop (requestRun p bs).1 = false → (requestRun p bs).2 = [] :=
    feed_rest_nil bs (p, false)
  generalize requestRun p bs = r at hv hk hr ⊢
  obtain ⟨⟨q, e⟩, rest⟩ := r
  cases e with
  | true => exact Or.inr (Or.inl ⟨q, rest, rfl⟩)
  | false =>
    simp only [RequestVerdict, Bool.false_eq_true, false_iff] at hv
    cases hs : q.state with
    | done => exact Or.inr (Or.inr (Or.inr ⟨q, rest, rfl, hs, hk⟩))
    | error => exact absurd hs hv
    | errorUnsupportedCmd => exact Or.inr (Or.inr (Or.inl ⟨q, rest, rfl, Or.inl hs⟩))
    | errorUnsupportedAtyp => exact Or.inr (Or.inr (Or.inl ⟨q, rest, rfl, Or.inr hs⟩))
    | version | cmd | rsv | atyp | dstAddr | dstPort =>
      have hstop : requestIsDone q.state = false := by simp [requestIsDone, hs]
      have hrest : rest = [] := hr hstop
      exact Or.inl ⟨q, by rw [hrest], hstop, hk⟩

/-! ## Shape -/

namespace View

/-- No address list and no origin yet. -/
structure Unconnected (v : View) : Prop where
  origin : v.originFd = none
  orig : ∃ r, v.orig = .conn ⟨[], r⟩

/-- The relay's two halves; a half that is closed has nothing left. -/
structure Relaying (v : View) : Prop where
  client : ∃ k, v.client = .copy k ∧ k.readFd = some v.clientFd ∧ k.writeFd = v.originFd
  orig : ∃ k, v.orig = .copy k ∧ k.readFd = v.originFd ∧ k.writeFd = some v.clientFd
  origin : v.originFd.isSome = true
  closed : ∀ d, (v.copyOf d).writeClosed = true → (v.copyOf d).eof = true ∧ v.bufOf d = []

def Sane (v : View) : Prop :=
  match v.st with
  | none => v.Unconnected ∧ v.rb = [] ∧ v.wb = [] ∧ v.ci = opRead ∧ v.hist = [] ∧ v.cl.rx = [] ∧
      v.cl.tx = []
  | some .helloRead => v.Unconnected ∧ v.wb = [] ∧ v.ci = opRead ∧
      ∃ h, v.client = .hello h ∧ helloStop (h.parser, false) = false
  | some .helloWrite => v.Unconnected ∧ v.wb ≠ [] ∧ v.ci = opWrite ∧ ∃ h, v.client = .hello h
  | some .authRead => v.Unconnected ∧ v.wb = [] ∧ v.ci = opRead ∧
      ∃ a, v.client = .auth a ∧ authStop (a.parser, false) = false
  | some .authWrite => v.Unconnected ∧ v.wb ≠ [] ∧ v.ci = opWrite ∧ ∃ a, v.client = .auth a
  | some .requestRead => v.Unconnected ∧ v.wb = [] ∧ v.ci = opRead ∧
      ∃ r, v.client = .request r ∧ requestStop (r.parser, false) = false ∧ AtypKnown r.parser
  | some .requestResolv => v.Unconnected ∧ v.wb = [] ∧ v.ci = opNoop ∧ ∃ r, v.client = .request r
  | some .connecting => v.wb = [] ∧ (∃ r, v.client = .request r) ∧
      (∃ cn, v.orig = .conn cn ∧ cn.reply ≠ replySucceeded) ∧
      (v.originFd = none → v.ci = opNoop ∨ v.ci = opWrite) ∧
      (v.originFd ≠ none → v.ci = opNoop ∧ v.oi = opWrite)
  | some .requestWrite => v.wb ≠ [] ∧ v.ci = opWrite ∧ (∃ cn, v.orig = .conn cn) ∧
      (∃ r, v.client = .request r ∧ (r.reply = replySucceeded ↔ v.originFd ≠ none)) ∧
      (v.originFd ≠ none → v.oi = opNoop)
  | some .copy => v.Relaying
  | some .done | some .error => True

theorem answer_wb (r : UInt8) (t : Int) (v : View) : (v.answer r t).wb ≠ [] := by
  simp [answer, note, enter, replyBytes]

end View

theorem helloStart_running : helloStop (helloStart.parser, false) = false := rfl

theorem authStart_running (stale : Bytes) : authStop ((authStart stale).parser, false) = false := rfl

theorem requestStart_running (stale : Bytes) :
    requestStop ((requestStart stale).parser, false) = false ∧
      AtypKnown (requestStart stale).parser :=
  ⟨rfl, by simp [AtypKnown, requestStart, requestParserInit]⟩

theorem errnoToSocksReply_ne (e : Errno) : errnoToSocksReply e ≠ replySucceeded := by
  cases e <;> decide

open View

theorem View.Unconnected.congr {v v' : View} (h : v.Unconnected) (h1 : v'.originFd = v.originFd)
    (h2 : v'.orig = v.orig) : v'.Unconnected := ⟨h1 ▸ h.origin, h2 ▸ h.orig⟩

theorem replyGeneralFailure_ne : replyGeneralFailure ≠ replySucceeded := by decide

theorem sane_answer {v : View} (r : UInt8) (t : Int) (hw : ∃ r, v.client = .request r)
   (ho : ∃ cn, v.orig = .conn cn) (hr : r = replySucceeded ↔ v.originFd ≠ none)
   (hi : v.originFd ≠ none → v.oi = opNoop) : (v.answer r t).Sane := by
  obtain ⟨q, hq⟩ := hw
  exact ⟨answer_wb r t v, rfl, ho, ⟨_, rfl, hr⟩, hi⟩

/-- The shape does not look at the sockets, once something has happened. -/
theorem View.Sane.onSocks {v : View} (hs : v.Sane) {cl og : Sock} (hrx : cl.rx = v.cl.rx)
    (htx : cl.tx = v.cl.tx) : ({ v with cl := cl, og := og } : View).Sane := by
  cases hst : v.st with
  | none =>
    simp only [Sane, hst, hrx, htx] at hs ⊢
    exact ⟨hs.1.congr rfl rfl, hs.2⟩
  | some st =>
    cases st <;> simp only [Sane, hst] at hs ⊢
    case copy => exact ⟨hs.client, hs.orig, hs.origin, hs.closed⟩
    case connecting => exact hs
    case requestWrite => exact hs
    all_goals exact ⟨hs.1.congr rfl rfl, hs.2⟩

/-- The sockets and the transferred counters apart, the halves of the relay may
change as long as what is closed has seen its end and is empty. -/
theorem View.Relaying.setCopy {v : View} (h : v.Relaying) (d : Dir) {k : Copy}
    (hr : k.readFd = (v.copyOf d).readFd) (hw : k.writeFd = (v.copyOf d).writeFd)
    (hc : k.writeClosed = true → k.eof = true ∧ v.bufOf d = []) : (v.setCopy d k).Relaying := by
  obtain ⟨⟨k1, hk1, h1, h1'⟩, ⟨k2, hk2, h2, h2'⟩, ho, hcl⟩ := h
  have e1 : v.copyOf .c2o = k1 := by simp only [copyOf, hk1]; rfl
  have e2 : v.copyOf .o2c = k2 := by simp only [copyOf, hk2]; rfl
  cases d with
  | c2o =>
    rw [e1] at hr hw
    refine ⟨⟨k, rfl, hr.trans h1, hw.trans h1'⟩, ⟨k2, hk2, h2, h2'⟩, ho, fun d' h' => ?_⟩
    cases d' with
    | c2o => exact hc h'
    | o2c => exact hcl .o2c h'
  | o2c =>
    rw [e2] at hr hw
    refine ⟨⟨k1, hk1, h1, h1'⟩, ⟨k, rfl, hr.trans h2, hw.trans h2'⟩, ho, fun d' h' => ?_⟩
    cases d' with
    | c2o => exact hcl .c2o h'
    | o2c => exact hc h'

theorem View.Relaying.setBuf {v : View} (h : v.Relaying) (d : Dir) {b : Bytes}
    (hc : (v.copyOf d).writeClosed = true → b = []) : (v.setBuf d b).Relaying := by
  obtain ⟨h1, h2, ho, hcl⟩ := h
  cases d with
  | c2o =>
    refine ⟨h1, h2, ho, fun d' h' => ?_⟩
    cases d' with
    | c2o => exact ⟨(hcl .c2o h').1, hc h'⟩
    | o2c => exact hcl .o2c h'
  | o2c =>
    refine ⟨h1, h2, ho, fun d' h' => ?_⟩
    cases d' with
    | c2o => exact hcl .c2o h'
    | o2c => exact ⟨(hcl .o2c h').1, hc h'⟩

theorem View.Relaying.setSource {v : View} (h : v.Relaying) (d : Dir) (k : Sock) :
    (v.setSource d k).Relaying := by cases d <;> exact ⟨h.client, h.orig, h.origin, h.closed⟩

theorem View.Relaying.setSink {v : View} (h : v.Relaying) (d : Dir) (k : Sock) :
    (v.setSink d k).Relaying := by cases d <;> exact ⟨h.client, h.orig, h.origin, h.closed⟩

theorem View.Relaying.note {v : View} (h : v.Relaying) (o : Obs) : (v.note o).Relaying :=
  ⟨h.client, h.orig, h.origin, h.closed⟩

theorem sane_copy {v : View} (hst : v.st = some .copy) : v.Sane ↔ v.Relaying := by
  simp only [Sane, hst]

@[simp] theorem setCopy_bufOf (d d' : Dir) (k : Copy) (v : View) :
    (v.setCopy d k).bufOf d' = v.bufOf d' := by cases d <;> rfl
@[simp] theorem setBuf_copyOf (d d' : Dir) (b : Bytes) (v : View) :
    (v.setBuf d b).copyOf d' = v.copyOf d' := by cases d <;> rfl
@[simp] theorem setBuf_bufOf (d : Dir) (b : Bytes) (v : View) : (v.setBuf d b).bufOf d = b := by
  cases d <;> rfl

/-- Every move keeps the shape. -/
theorem Move.sane {v v' : View} (h : Move strict v v') (hs : v.Sane) : v'.Sane := by
  cases h with
  | start t hst =>
    simp only [Sane, hst] at hs
    obtain ⟨hu, hr, hw, hc, -⟩ := hs
    exact ⟨hu.congr rfl rfl, hw, hc, _, rfl, helloStart_running⟩
  | @received st bs hst hrd hrb hne hle =>
    simp only [Sane, hst] at hs ⊢
    cases st <;> simp [SocksState.isRead] at hrd <;> exact ⟨hs.1.congr rfl rfl, hs.2⟩
  | recvLost t hst hrd => trivial
  | sendLost t hst hw => trivial
  | @sent st n hst hw hn =>
    have hne : v.wb.drop n ≠ [] := by simp [List.drop_eq_nil_iff]; omega
    simp only [Sane, hst] at hs ⊢
    cases st <;> simp [SocksState.isWrite] at hw
    · exact ⟨hs.1.congr rfl rfl, hne, hs.2.2⟩
    · exact ⟨hs.1.congr rfl rfl, hne, hs.2.2⟩
    · exact ⟨hne, hs.2⟩
  | helloMore p hst hrun hd =>
    simp only [Sane, hst] at hs
    obtain ⟨hu, hw, hc, h, hh, hp⟩ := hs
    rw [show v.client.asHello = h by rw [hh]; rfl] at hrun
    simp only [Sane, readHello, hst]
    refine ⟨hu.congr rfl rfl, hw, hc, _, rfl, ?_⟩
    rcases helloRun_cases hp v.rb with ⟨q, h1, _, h2⟩ | ⟨q, rest, h1⟩ | ⟨q, rest, h1, h2⟩
    · rw [hrun] at h1; cases h1; exact h2
    · rw [hrun] at h1; cases h1
    · rw [hrun] at h1; cases h1; simp [helloIsDone, h2] at hd
  | helloBad => trivial
  | helloDone us p rest t hst hrun hp =>
    simp only [Sane, hst] at hs
    exact ⟨hs.1.congr rfl rfl, by simp [processHello, enter, note], rfl, _, rfl⟩
  | helloRefused => trivial
  | helloToAuth stale t hst hm =>
    simp only [Sane, hst] at hs
    exact ⟨hs.1.congr rfl rfl, rfl, rfl, _, rfl, authStart_running stale⟩
  | helloToRequest stale t hst hm =>
    simp only [Sane, hst] at hs
    exact ⟨hs.1.congr rfl rfl, rfl, rfl, _, rfl, requestStart_running stale⟩
  | authMore p hst hrun hd =>
    simp only [Sane, hst] at hs
    obtain ⟨hu, hw, hc, a, ha, hp⟩ := hs
    rw [show v.client.asAuth = a by rw [ha]; rfl] at hrun
    simp only [Sane, readAuth, hst]
    refine ⟨hu.congr rfl rfl, hw, hc, _, rfl, ?_⟩
    rcases authRun_cases hp v.rb with ⟨q, h1, _, h2⟩ | ⟨q, rest, h1⟩ | ⟨q, rest, h1, h2⟩
    · rw [hrun] at h1; cases h1; exact h2
    · rw [hrun] at h1; cases h1
    · rw [hrun] at h1; cases h1; simp [authIsDone, h2] at hd
  | authBad => trivial
  | authDone us p rest t hst hrun hp =>
    simp only [Sane, hst] at hs
    exact ⟨hs.1.congr rfl rfl, by simp [processAuth, enter, note], rfl, _, rfl⟩
  | authRefused => trivial
  | authToRequest stale t hst hm =>
    simp only [Sane, hst] at hs
    exact ⟨hs.1.congr rfl rfl, rfl, rfl, _, rfl, requestStart_running stale⟩
  | requestMore p hst hrun hd =>
    simp only [Sane, hst] at hs
    obtain ⟨hu, hw, hc, r, hr, hp, hk⟩ := hs
    rw [show v.client.asRequest = r by rw [hr]; rfl] at hrun
    simp only [Sane, readRequest, hst]
    refine ⟨hu.congr rfl rfl, hw, hc, _, rfl, hd, ?_⟩
    rcases requestRun_cases hp hk v.rb with ⟨q, h1, _, h2⟩ | ⟨q, rest, h1⟩ | ⟨q, rest, h1, h2⟩ |
      ⟨q, rest, h1, h2, _⟩
    · rw [hrun] at h1; cases h1; exact h2
    · rw [hrun] at h1; cases h1
    · rw [hrun] at h1; cases h1; rcases h2 with h2 | h2 <;> simp [requestIsDone, h2] at hd
    · rw [hrun] at h1; cases h1; simp [requestIsDone, h2] at hd
  | requestBad => trivial
  | requestRefused p rest reply t hst hrun hp =>
    simp only [Sane, hst] at hs
    obtain ⟨hu, -, -, r, hr, -⟩ := hs
    obtain ⟨q, hq⟩ := hu.orig
    refine sane_answer reply t ⟨_, rfl⟩ ⟨_, hq⟩ ?_ (fun h => absurd hu.origin h)
    simp only [processRequest, readRequest, note, hu.origin, ne_eq, not_true, iff_false]
    rcases hp with ⟨_, h⟩ | ⟨_, h⟩ <;> rw [h] <;> decide
  | requestUnsubmitted p rest t hst hrun hp hty =>
    simp only [Sane, hst] at hs
    obtain ⟨hu, -, -, r, hr, -⟩ := hs
    obtain ⟨q, hq⟩ := hu.orig
    refine sane_answer _ t ⟨_, rfl⟩ ⟨_, hq⟩ ?_ (fun h => absurd hu.origin h)
    simp only [processRequest, readRequest, storeDest, note, hu.origin, ne_eq, not_true, iff_false]
    decide
  | requestSubmitted p rest k t hst hrun hp hty =>
    simp only [Sane, hst] at hs
    exact ⟨hs.1.congr rfl rfl, hs.2.1, rfl, _, rfl⟩
  | requestLiteral p rest t hst hrun hp hty =>
    simp only [Sane, hst] at hs
    obtain ⟨hu, hw, -, r, hr, -⟩ := hs
    exact ⟨hw, ⟨_, rfl⟩, ⟨_, rfl, by decide⟩, fun _ => Or.inl rfl, fun h => absurd hu.origin h⟩
  | resolved found hst =>
    simp only [Sane, hst] at hs ⊢
    exact ⟨hs.1.congr rfl rfl, hs.2⟩
  | dnsFailed t hst hf =>
    simp only [Sane, hst] at hs
    obtain ⟨hu, -, -, r, hr⟩ := hs
    obtain ⟨q, hq⟩ := hu.orig
    refine sane_answer _ t ⟨_, hr⟩ ⟨_, hq⟩ ?_ (fun h => absurd hu.origin h)
    simp only [note, hu.origin, ne_eq, not_true, iff_false]
    decide
  | dnsFound t hst hf =>
    simp only [Sane, hst] at hs
    obtain ⟨hu, hw, hc, r, hr⟩ := hs
    exact ⟨hw, ⟨_, hr⟩, ⟨_, rfl, replyGeneralFailure_ne⟩, fun _ => Or.inl hc,
      fun h => absurd hu.origin h⟩
  | attemptFailed a rest e hat =>
    obtain ⟨hst, ho, hc, -⟩ := hat
    simp only [Sane, hst, setReply, note] at hs ⊢
    exact ⟨hs.1, hs.2.1, ⟨_, rfl, errnoToSocksReply_ne e⟩, hs.2.2.2⟩
  | attemptUnregistered a rest hat =>
    obtain ⟨hst, ho, hc, -⟩ := hat
    simp only [Sane, hst, note] at hs ⊢
    exact ⟨hs.1, hs.2.1, ⟨_, rfl, replyGeneralFailure_ne⟩, fun _ => Or.inr trivial,
      fun h => absurd ho h⟩
  | attemptOpened a rest fd k hat hk =>
    obtain ⟨hst, ho, hc, -⟩ := hat
    simp only [Sane, hst, note] at hs ⊢
    obtain ⟨hw, hr, ⟨cn, hcn, hne⟩, -⟩ := hs
    refine ⟨hw, hr, ⟨_, rfl, ?_⟩, (fun h => by cases h), fun _ => ⟨hc, trivial⟩⟩
    rw [hcn]; exact hne
  | exhausted a e hst ho hc hn hl =>
    simp only [Sane, hst] at hs ⊢
    exact ⟨hs.1, hs.2.1, hs.2.2.1, fun _ => Or.inr trivial, fun h => absurd ho h⟩
  | gaveUp t hst ho hc =>
    simp only [Sane, hst] at hs
    obtain ⟨hw, hr, ⟨cn, hcn, hne⟩, -⟩ := hs
    refine sane_answer _ t hr ⟨cn, hcn⟩ ?_ (fun h => absurd ho h)
    rw [hcn]
    exact iff_of_false hne fun h => h ho
  | connected fd t hst ho he =>
    simp only [Sane, hst] at hs
    obtain ⟨hw, hr, ⟨cn, hcn, hne⟩, -⟩ := hs
    refine sane_answer _ t hr ⟨cn, hcn⟩ ?_ (fun _ => rfl)
    simp [sawOrigin, note, ho]
  | originFailed fd e hst ho hn =>
    simp only [Sane, hst] at hs
    obtain ⟨hw, hr, -, -, hi⟩ := hs
    simp only [Sane, hst, noOrigin, setReply, sawOrigin, note]
    exact ⟨hw, hr, ⟨_, rfl, errnoToSocksReply_ne e⟩, fun _ => Or.inl (hi (by simp [ho])).1,
      fun h => absurd rfl h⟩
  | originGaveUp fd e t hst ho hn =>
    simp only [Sane, hst] at hs
    refine sane_answer _ t hs.2.1 ⟨_, rfl⟩ ?_ (fun h => absurd rfl h)
    simpa [noOrigin, View.note] using errnoToSocksReply_ne e
  | connectTimedOut t hst =>
    simp only [Sane, hst] at hs
    simp only [Sane, hst, noOrigin, note]
    exact ⟨hs.1, hs.2.1, ⟨_, rfl, by decide⟩, fun _ => Or.inr trivial, fun h => absurd rfl h⟩
  | requestRefusalSent => trivial
  | relayStarted t hst hr =>
    simp only [Sane, hst] at hs
    obtain ⟨-, -, -, ⟨r, hcl, hiff⟩, -⟩ := hs
    have ho : v.originFd ≠ none := hiff.mp (by rw [hcl] at hr; exact hr)
    exact ⟨⟨_, rfl, rfl, rfl⟩, ⟨_, rfl, rfl, rfl⟩, Option.isSome_iff_ne_none.mpr ho,
      fun d h => by cases d <;> cases h⟩
  | relayReceived d bs t hst he hne hle =>
    have hr := (sane_copy hst).mp hs
    have h' : ((v.setBuf d (v.bufOf d ++ bs)).setSource d
        { v.source d with rx := (v.source d).rx ++ bs }).Relaying :=
      (hr.setBuf d fun h => by rw [(hr.closed d h).1] at he; cases he).setSource d _
    exact (sane_copy (by simp [note, hst])).mpr ⟨h'.client, h'.orig, h'.origin, h'.closed⟩
  | relayEof d t hst =>
    have hr := (sane_copy hst).mp hs
    have h' := hr.setCopy d (k := { v.copyOf d with eof := true }) rfl rfl
      fun h => ⟨rfl, (hr.closed d h).2⟩
    exact (sane_copy (by simp [hst])).mpr ((h'.setSource d _).note _)
  | relaySent d n fl hst hb hn =>
    have hr := (sane_copy hst).mp hs
    have h' := hr.setBuf d (b := (v.bufOf d).drop n) fun h => by rw [(hr.closed d h).2]; simp
    have h'' := h'.setCopy d (k := { v.copyOf d with
      transferred := (v.copyOf d).transferred + n.toUInt64 }) (by rw [setBuf_copyOf])
      (by rw [setBuf_copyOf]) fun h => by
        rw [setBuf_bufOf, (hr.closed d h).2]
        exact ⟨(hr.closed d h).1, List.drop_nil⟩
    exact (sane_copy (by simp [hst])).mpr ((h''.setSink d _).note _)
  | relayUnread d lost t hst =>
    exact (sane_copy (by simp [hst])).mpr ((((sane_copy hst).mp hs).setSource d _).note _)
  | relayUnsent d lost fl hst =>
    exact (sane_copy (by simp [hst])).mpr ((((sane_copy hst).mp hs).setSink d _).note _)
  | relayShut d shut hst he hw hb =>
    have hr := (sane_copy hst).mp hs
    have h' := hr.setCopy d (k := { v.copyOf d with writeClosed := true }) rfl rfl
      fun _ => ⟨he, hb⟩
    exact (sane_copy (by simp [hst])).mpr ((h'.setSink d _).note _)
  | relayUnshut => trivial
  | relaySynced r₁ r₂ hst =>
    have hr := (sane_copy hst).mp hs
    exact (sane_copy (show (v.synced r₁ r₂).st = _ from hst)).mpr
      ⟨hr.client, hr.orig, hr.origin, hr.closed⟩
  | relayDone => trivial
  | relayBroken => trivial
  | reported a b hb => exact hs.onSocks rfl rfl
  | settled conn err hp hc => exact @View.Sane.onSocks v hs v.cl _ rfl rfl

theorem Moves.sane {v v' : View} (h : Moves strict v v') (hs : v.Sane) : v'.Sane := by
  induction h with
  | refl => exact hs
  | tail _ hm ih => exact hm.sane ih

end Socks5d
