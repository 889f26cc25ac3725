import Socks5d.Room
import Socks5d.Transcript

/-! # What the server says

Everything a client is sent: at most one reply to each of its three messages,
whole and in order, and behind a success what the origin sent. Partial sends
only decide how much of it has left the write buffer. -/
namespace Socks5d
open Buffer Ctx View

/-- What lets a client go on to its request. -/
def Overture (bs : Bytes) : Prop :=
  bs = [socksVersion, helloNoAuthenticationRequired] ∨
    bs = [socksVersion, helloUsernamePassword, authVersion, 0x00]

/-- The replies of a negotiation, as far as it got. -/
inductive Utterance : Bytes → Prop
  | silent : Utterance []
  | method (m : UInt8) : Utterance [socksVersion, m]
  | status (s : UInt8) : Utterance [socksVersion, helloUsernamePassword, authVersion, s]
  | reply {bs : Bytes} (r : UInt8) : Overture bs → Utterance (bs ++ replyBytes r)

/-- What a history has the client be told. -/
def spoken (h : List Obs) : Bytes := h.flatMap Obs.says

@[simp] theorem spoken_nil : spoken [] = [] := rfl
@[simp] theorem spoken_cons (o : Obs) (h : List Obs) : spoken (o :: h) = o.says ++ spoken h := rfl
@[simp] theorem spoken_append (h l : List Obs) : spoken (h ++ l) = spoken h ++ spoken l :=
  List.flatMap_append

/-- Only the verdicts are told. -/
theorem spoken_verdicts : ∀ h : List Obs, spoken (verdicts h) = spoken h
  | [] => rfl
  | o :: h => by
    have ih := spoken_verdicts h
    unfold verdicts at ih ⊢
    rw [spoken_cons, List.filter_cons]
    split
    · rw [spoken_cons, ih]
    · next ho =>
      have hsays : o.says = [] := by simpa using ho
      rw [ih, hsays, List.nil_append]

section Speech
variable {strict : Prop} {u v v' : View} {l : List Obs}

theorem spoken_unsaid (hl : ∀ o ∈ l, o.says = []) : spoken l = [] := by
  unfold spoken
  rw [List.flatMap_eq_nil_iff]
  exact hl

/-- What the start of a relay adds to a history. -/
theorem startRelay_each (u : View) (t : Int) {P : Obs → Prop} (henter : ∀ t, P (.entered .copy t))
    (hstart : ∀ got sent left, P (.relayStart got sent left)) (hlog : ∀ r, P (.logged r)) :
    ∀ o ∈ [.entered .copy t, .relayStart u.cl.rx.length u.drained.cl.tx.length u.rb] ++
      (u.drained.openRecord t).toList.map .logged, P o := by
  intro o ho
  rcases List.mem_append.mp ho with ho | ho
  · rcases List.mem_cons.mp ho with rfl | ho
    · exact henter t
    · rw [List.mem_singleton.mp ho]
      exact hstart _ _ _
  · obtain ⟨r, -, rfl⟩ := List.mem_map.mp ho
    exact hlog r

/-- The start of a relay says nothing. -/
theorem startRelay_unsaid (u : View) (t : Int) :
    ∀ o ∈ [.entered .copy t, .relayStart u.cl.rx.length u.drained.cl.tx.length u.rb] ++
      (u.drained.openRecord t).toList.map .logged, Obs.says o = [] :=
  startRelay_each u t (fun _ => rfl) (fun _ _ _ => rfl) fun _ => rfl

theorem Cleared.overture {ns : List Obs} {got user : Bytes} (h : Cleared ns got user) :
    Overture (spoken ns) := by
  cases h with
  | anyone => exact Or.inl rfl
  | known => exact Or.inr rfl

theorem Course.utterance {ns : List Obs} {got user : Bytes} (h : Course ns got user) :
    Utterance (spoken ns) := by
  cases h with
  | silent => exact .silent
  | chosen => exact .method _
  | judged => exact .status _
  | replied r hc =>
    rw [spoken_append]
    exact .reply r hc.overture

/-- What has been sent and what is queued is what was to be said, and behind it
what came from the origin. -/
structure View.Voiced (v : View) : Prop where
  said : v.cl.tx ++ v.wb = spoken v.hist ++ v.og.rx
  mute : ¬v.Tunnel → v.og.rx = []

theorem RelayMove.voiced (h : RelayMove v v') (hv : v.Voiced) (hp : v.Tunnel) : v'.Voiced := by
  obtain ⟨l, hh, hrun⟩ := h.grows
  have hl : spoken l = [] := spoken_unsaid fun o ho => Obs.says_of_running (hrun o ho)
  have hsaid := hv.said
  refine ⟨?_, fun hn => absurd (h.tunnel hp) hn⟩
  rw [hh, spoken_append, hl, List.append_nil]
  cases h with
  | received d bs =>
    cases d with
    | c2o => exact hsaid
    | o2c =>
      show v.cl.tx ++ (v.wb ++ bs) = spoken v.hist ++ (v.og.rx ++ bs)
      rw [← List.append_assoc, hsaid, List.append_assoc]
  | sent d n =>
    cases d with
    | c2o => exact hsaid
    | o2c =>
      show (v.cl.tx ++ v.wb.take n) ++ v.wb.drop n = _
      rw [List.append_assoc, List.take_append_drop]
      exact hsaid
  | eof d | unread d | unsent d | shut d => cases d <;> exact hsaid
  | unshut | synced | finished | broken => exact hsaid
  | network cl og hcl hog =>
    show cl.tx ++ v.wb = spoken v.hist ++ og.rx
    rw [hcl.2, hog.1]
    exact hsaid

theorem Move.voiced (h : Move strict v v') (hv : v.Voiced) : v'.Voiced := by
  by_cases hp : v.Tunnel
  · exact (h.relay hp).voiced hv hp
  have hog := hv.mute hp
  have hsaid := hv.said
  rw [hog, List.append_nil] at hsaid
  -- `bs` is said
  have hsay : ∀ {l : List Obs} (bs : Bytes), v'.hist = v.hist ++ l → spoken l = bs →
      v'.cl.tx ++ v'.wb = (v.cl.tx ++ v.wb) ++ bs → v'.og.rx = [] → v'.Voiced := by
    intro l bs hh hl htx hrx
    refine ⟨?_, fun _ => hrx⟩
    rw [htx, hh, hrx, spoken_append, hl, hsaid, List.append_nil]
  have hnil : v.hist = v.hist ++ [] := (List.append_nil _).symm
  have hstill : v.cl.tx ++ v.wb = (v.cl.tx ++ v.wb) ++ [] := (List.append_nil _).symm
  have hdrained : (v.cl.tx ++ v.wb) ++ [] = (v.cl.tx ++ v.wb) ++ [] := rfl
  have hanswer : ∀ r, v.cl.tx ++ (v.wb ++ replyBytes r) = (v.cl.tx ++ v.wb) ++ replyBytes r :=
    fun r => (List.append_assoc ..).symm
  cases h with
  | start t hst | recvLost t hst hr | sendLost t hst hr | helloBad p rest t hst
  | authBad p rest t hst | requestBad p rest t hst =>
    exact hsay [] rfl rfl hstill hog
  | received | helloMore | authMore | requestMore | resolved | exhausted | reported | settled =>
    exact hsay [] hnil rfl hstill hog
  | sent n hst hw hn =>
    refine hsay [] hnil rfl ?_ hog
    show (v.cl.tx ++ v.wb.take n) ++ v.wb.drop n = _
    rw [List.append_assoc, List.take_append_drop, List.append_nil]
  | helloDone us p rest t hst =>
    exact hsay [socksVersion, helloMethod us p.data] (List.append_assoc _ [_] [_]) rfl
      (List.append_assoc ..).symm hog
  | authDone us p rest t hst =>
    exact hsay [authVersion, authStatus us p] (List.append_assoc _ [_] [_]) rfl
      (List.append_assoc ..).symm hog
  | helloRefused t hst | helloToAuth stale t hst | helloToRequest stale t hst | authRefused t hst
  | authToRequest stale t hst | requestRefusalSent t hst =>
    exact hsay [] rfl rfl hdrained hog
  | relayStarted t hst =>
    exact hsay [] (startRelay_grown v t) (spoken_unsaid (startRelay_unsaid v t)) hdrained hog
  | requestRefused p rest r t hst =>
    exact hsay (l := [.requestProcessed rest, .replied r, .entered .requestWrite t]) (replyBytes r)
      (by simp) (by simp) (hanswer r) hog
  | requestUnsubmitted p rest t hst =>
    exact hsay (l := [.requestProcessed rest, .dnsSubmit none, .replied replyGeneralFailure,
      .entered .requestWrite t]) (replyBytes replyGeneralFailure) (by simp) (by simp) (hanswer _) hog
  | dnsFailed t hst =>
    exact hsay (l := [.dnsConsumed [], .replied replyHostUnreachable, .entered .requestWrite t])
      (replyBytes replyHostUnreachable) (by simp) (by simp) (hanswer _) hog
  | gaveUp t hst =>
    exact hsay (l := [.connectFailed, .replied v.orig.asConn.reply, .entered .requestWrite t])
      (replyBytes v.orig.asConn.reply) (by simp) (by simp) (hanswer _) hog
  | connected fd t hst =>
    exact hsay (l := [.completed none v.og.reported (some v.og.conn), .replied replySucceeded,
      .entered .requestWrite t]) (replyBytes replySucceeded) (by simp) (by simp) (hanswer _) hog
  | originGaveUp fd e t hst =>
    exact hsay (l := [.completed (some e) v.og.reported (some v.og.conn), .connectFailed,
      .replied (errnoToSocksReply e), .entered .requestWrite t]) (replyBytes (errnoToSocksReply e))
      (by simp) (by simp) (hanswer _) rfl
  | requestSubmitted p rest k t hst =>
    exact hsay (l := [.requestProcessed rest, .dnsSubmit (some k), .entered .requestResolv t]) []
      (by simp) rfl hstill hog
  | requestLiteral p rest t hst =>
    exact hsay (l := [.requestProcessed rest, .entered .connecting t]) [] (by simp) rfl hstill hog
  | dnsFound t hst =>
    exact hsay (l := [.dnsConsumed v.found, .entered .connecting t]) [] (by simp) rfl hstill hog
  | attemptFailed a rest e ha | attemptUnregistered a rest ha =>
    exact hsay [] rfl rfl hstill hog
  | attemptOpened a rest fd k ha hk =>
    refine hsay [] rfl rfl hstill ?_
    rcases hk with rfl | rfl <;> rfl
  | originFailed fd e hst | connectTimedOut t hst => exact hsay [] rfl rfl hstill rfl
  | _ => exact absurd (Or.inl ‹v.st = some .copy›) hp

theorem Reached.voiced (h : Reached strict v) : v.Voiced :=
  h.induct (fun _ _ => ⟨rfl, fun _ => rfl⟩) fun _ hv hm => hm.voiced hv

/-! ## Behind a success -/

/-- The last thing said was that the origin was reached. -/
def View.Succeeded (v : View) : Prop :=
  ∃ ns got user, Cleared ns got user ∧ verdicts v.hist = ns ++ [.replied replySucceeded]

theorem View.Succeeded.grow (h : v.Succeeded) (hh : v'.hist = v.hist ++ l)
    (hl : ∀ o ∈ l, o.says = []) : v'.Succeeded := by
  obtain ⟨ns, got, user, hc, hv⟩ := h
  have hnil : verdicts l = [] := List.filter_eq_nil_iff.mpr fun o ho => by
    rw [hl o ho]
    decide
  exact ⟨ns, got, user, hc, by rw [hh, verdicts_append, hv, hnil, List.append_nil]⟩

theorem Opens.succeeded {u : View} (h : Opens strict u) (t : Int) :
    (u.drained.startRelay t).Succeeded := by
  have hs := h.reached.script
  simp only [View.Script, h.st] at hs
  obtain ⟨ns, got, user, hc, ht, -⟩ := hs
  rw [h.granted] at ht
  have hu : u.Succeeded := ⟨ns, got, user, hc, ht.verdicts⟩
  exact hu.grow (startRelay_grown u t) (startRelay_unsaid u t)

/-- Nothing comes from an origin before the client has been told of it. -/
theorem Reached.announced (h : Reached strict v) (hrx : v.og.rx ≠ []) : v.Succeeded := by
  have hrelay := h.relay (P := fun _ _ v => v.Succeeded) (fun _ t hu => hu.succeeded t)
    fun {_ _ v v'} _ _ hp hm => by
      obtain ⟨l, hh, hrun⟩ := hm.grows
      exact hp.grow hh fun o ho => Obs.says_of_running (hrun o ho)
  rcases hrelay with hbefore | ⟨u, t, -, hp⟩
  · exact absurd hbefore.origin.1 hrx
  · exact hp

/-- What a client has been sent, and what is queued for it. -/
def View.Grammatical (v : View) : Prop :=
  ∃ said, Utterance said ∧ v.cl.tx ++ v.wb = said ++ v.og.rx ∧
    (v.og.rx ≠ [] → ∃ bs, Overture bs ∧ said = bs ++ replyBytes replySucceeded)

theorem Reached.grammatical (h : Reached strict v) : v.Grammatical := by
  obtain ⟨ns, got, user, hcourse, ht, -⟩ := h.script.course
  have hspoken : spoken ns = spoken v.hist := by rw [← ht.verdicts, spoken_verdicts]
  refine ⟨spoken v.hist, hspoken ▸ hcourse.utterance, h.voiced.said, fun hrx => ?_⟩
  obtain ⟨ns', got', user', hc, hv⟩ := h.announced hrx
  refine ⟨spoken ns', hc.overture, ?_⟩
  rw [← spoken_verdicts, hv, spoken_append]
  rfl

/-! ## Room for a reply -/

/-- The states whose handlers and ends queue a reply. -/
def SocksState.replies : SocksState → Bool
  | .helloRead | .authRead | .requestRead | .requestResolv | .connecting => true
  | _ => false

theorem View.Sane.unqueued (h : v.Sane) (hr : (v.st.getD .helloRead).replies = true) :
    v.wb = [] := by
  cases hst : v.st with
  | none =>
    simp only [View.Sane, hst] at h
    exact h.2.2.1
  | some st =>
    rw [hst] at hr
    cases st with
    | helloRead | authRead | requestRead | requestResolv =>
      simp only [View.Sane, hst] at h
      exact h.2.1
    | connecting =>
      simp only [View.Sane, hst] at h
      exact h.1
    | _ => cases hr

end Speech

section Enters
variable {τ : Terms} {ρ : Roster} {w : World} {i : Fd} {c : SCtx}

theorem Inv.enters_sane (h : Inv τ ρ w) (hc : AllCalm ρ w) (hs : ¬τ.strict) (he : w.Enters i c) :
    c.view.Sane := by
  cases he with
  | event hit hh => exact (h.sound (h.registry.socks5 i _ hit hh).1).reached.sane
  | @between it now w' hit hw' hnow hh hi =>
    obtain ⟨ρ', h', -, hdata⟩ := h.between hc hit hw' hnow hi hs
    rw [← hdata]
    exact (h'.sound (h'.registry.socks5 i now hnow hh).1).reached.sane
  | turn hp ht =>
    obtain ⟨c₀, hl, he⟩ := h.pumps hc hp hs
    obtain ⟨_, h'⟩ := ht.inState (he.leads.entered hl) he.mine
    exact h'.sane

end Enters

theorem View.Grammatical.filed {u : View} {l : List Obs} (h : u.Grammatical) : (u.filed l).Grammatical := h

/-- In every run, whatever pieces its bytes came and went in, a client is sent at
most one answer to each of its messages, each whole and in order, and bytes of its
origin only behind a success; and where a handler queues an answer the write
buffer is empty and the answer fits. -/
theorem output_grammar (b : Boot) (is : List Input) :
    (∀ v, (b.start.run is).Session v → v.Grammatical) ∧
    ∀ (x : Input) (i : Fd) (c : SCtx), (b.start.run is).Running →
      ((b.start.run is).load x).Enters i c → (sessionStm.stmState c).replies = true →
      c.s.writeBuffer.unread = [] ∧
        ∀ m, m ≠ [] → m.length ≤ bufferSize → ∃ wb, marshall c.s.writeBuffer m = some wb ∧
          wb.unread = m := by
  obtain ⟨ρ, h⟩ := b.orderly is
  refine ⟨fun v hs => h.every hs Reached.grammatical fun _ _ hu => hu.filed, ?_⟩
  intro x i c hrun he hr
  obtain ⟨h1, hc1⟩ := h.inv.load h.calm hrun.1 x
  have hown := h1.enters hc1 id he
  have hempty : c.s.writeBuffer.unread = [] := (h1.enters_sane hc1 id he).unqueued hr
  refine ⟨hempty, fun m hne hl => ?_⟩
  obtain ⟨wb, hm, -, -, hu⟩ := marshall_empty hown.here.wb hempty hne (hown.here.wbLimit ▸ hl)
  exact ⟨wb, hm, hu⟩

theorem output_grammar_sample :
    let w := (Boot.open.start.run Input.greeting).load (.turn [] [5, 1, 0, 5] 1)
    ((Boot.open.start.run Input.tunnel).ctx 0).view.Grammatical ∧
      ∃ wb, marshall (w.ctx 0).s.writeBuffer [5, 0] = some wb ∧ wb.unread = [5, 0] := by
  intro w
  refine ⟨(output_grammar Boot.open Input.tunnel).1 _ (.live tunnel_serves), ?_⟩
  have hrun : (Boot.open.start.run Input.greeting).Running := ⟨by decide +kernel, by decide +kernel⟩
  have hit : w.sel.fds 2 = some ⟨opRead, .socks5, 0⟩ := by decide +kernel
  have hst : sessionStm.stmState (w.ctx 0) = .helloRead := by decide +kernel
  obtain ⟨-, hfits⟩ := (output_grammar Boot.open Input.greeting).2 _ 2 (w.ctx 0) hrun
    (.event hit rfl) (by rw [hst]; rfl)
  exact hfits [5, 0] (by decide) (by decide)

end Socks5d
