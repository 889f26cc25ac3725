import Socks5d.Reckoning
import Socks5d.Speech

/-! # What became of the attempts

The counters of outcomes against the histories: every session that entered
CONNECTING is still there or was counted once when it left, with the reply it
marshalled. -/
namespace Socks5d
open Ctx View

/-! ## Reading a history -/

/-- The state a session is in after a history that found it in `cur`. -/
def standing : Option SocksState → List Obs → Option SocksState
  | cur, [] => cur
  | _, .entered st _ :: h => standing (some st) h
  | cur, _ :: h => standing cur h

/-- The replies that were marshalled in state `st`. -/
def repliesIn (st : SocksState) : Option SocksState → List Obs → List UInt8
  | _, [] => []
  | _, .entered s _ :: h => repliesIn st (some s) h
  | cur, .replied r :: h => (if cur = some st then [r] else []) ++ repliesIn st cur h
  | cur, _ :: h => repliesIn st cur h

@[simp] def Obs.enters (st : SocksState) : Obs → Bool
  | .entered s _ => s == st
  | _ => false

@[simp] def Obs.succeeds : Obs → Bool
  | .replied r => r == replySucceeded
  | _ => false

/-- How often a state was entered; how often success was told; how often failure
was told on the way out of CONNECTING. -/
def entries (st : SocksState) (h : List Obs) : Nat := h.countP (Obs.enters st)

def successes (h : List Obs) : Nat := h.countP Obs.succeeds

def givenUp (h : List Obs) : Nat := (repliesIn .connecting none h).countP (· ≠ replySucceeded)

/-- What moves a session on, replies or is counted. -/
@[simp] def Obs.marks : Obs → Bool
  | .entered _ _ | .replied _ => true
  | o => o.connects || o.gives

section Reading
variable {st : SocksState} {h l : List Obs} {cur : Option SocksState}

theorem standing_append : ∀ (cur : Option SocksState) (h l : List Obs),
    standing cur (h ++ l) = standing (standing cur h) l
  | _, [], _ => rfl
  | cur, o :: h, l => by
    cases o <;> exact standing_append _ h l

theorem repliesIn_append : ∀ (cur : Option SocksState) (h l : List Obs),
    repliesIn st cur (h ++ l) = repliesIn st cur h ++ repliesIn st (standing cur h) l
  | _, [], _ => rfl
  | cur, o :: h, l => by
    cases o with
    | replied r =>
      show _ ++ repliesIn st cur (h ++ l) = (_ ++ repliesIn st cur h) ++ _
      rw [repliesIn_append cur h l, List.append_assoc]
      rfl
    | _ => exact repliesIn_append _ h l

/-- Nothing that leaves no mark is read. -/
theorem standing_unmarked (cur : Option SocksState) (hl : ∀ o ∈ l, o.marks = false) :
    standing cur l = cur := by
  induction l with
  | nil => rfl
  | cons o l ih =>
    have ho := hl o List.mem_cons_self
    have ih := ih fun x hx => hl x (List.mem_cons_of_mem _ hx)
    cases o with
    | entered s t => cases ho
    | _ => exact ih

theorem repliesIn_unmarked (cur : Option SocksState) (hl : ∀ o ∈ l, o.marks = false) :
    repliesIn st cur l = [] := by
  induction l with
  | nil => rfl
  | cons o l ih =>
    have ho := hl o List.mem_cons_self
    have ih := ih fun x hx => hl x (List.mem_cons_of_mem _ hx)
    cases o with
    | entered s t | replied r => cases ho
    | _ => exact ih

theorem countP_unmarked {P : Obs → Bool} (hP : ∀ o : Obs, P o = true → o.marks = true)
    (hl : ∀ o ∈ l, o.marks = false) : l.countP P = 0 :=
  List.countP_eq_zero.mpr fun o ho hm => by
    have hno := hl o ho
    rw [hP o hm] at hno
    cases hno

theorem counts_unmarked (st : SocksState) (hl : ∀ o ∈ l, o.marks = false) :
    entries st l = 0 ∧ connections l = 0 ∧ failures l = 0 ∧ successes l = 0 := by
  refine ⟨countP_unmarked (fun o => ?_) hl, countP_unmarked (fun o => ?_) hl,
    countP_unmarked (fun o => ?_) hl, countP_unmarked (fun o => ?_) hl⟩
  · cases o <;> simp
  · cases o with
    | completed e a k => cases e <;> simp
    | _ => simp
  · cases o <;> simp
  · cases o <;> simp

theorem entries_append (h l : List Obs) : entries st (h ++ l) = entries st h + entries st l :=
  List.countP_append

theorem successes_append (h l : List Obs) : successes (h ++ l) = successes h + successes l :=
  List.countP_append

theorem givenUp_append (h l : List Obs) : givenUp (h ++ l) = givenUp h +
    (repliesIn .connecting (standing none h) l).countP (· ≠ replySucceeded) := by
  unfold givenUp
  rw [repliesIn_append, List.countP_append]

end Reading

/-! ## What a move adds to a history -/

/-- What a session in state `s` notes when it moves to state `s'`. -/
inductive Beat : Option SocksState → List Obs → Option SocksState → Prop
  | stay {s : Option SocksState} {l : List Obs} : (∀ o ∈ l, o.marks = false) → Beat s l s
  | enter {s : Option SocksState} {l r : List Obs} (st : SocksState) (t : Int) :
      s ≠ some .connecting → (∀ o ∈ l, o.marks = false) → (∀ o ∈ r, o.marks = false) →
      Beat s (l ++ [.entered st t] ++ r) (some st)
  | refuse {s : Option SocksState} {l : List Obs} (r : UInt8) (t : Int) :
      s ≠ some .connecting → (∀ o ∈ l, o.marks = false) → r ≠ replySucceeded →
      Beat s (l ++ [.replied r, .entered .requestWrite t]) (some .requestWrite)
  | connected (a : Bool) (k : Option Conn) (t : Int) : Beat (some .connecting)
      [.completed none a k, .replied replySucceeded, .entered .requestWrite t] (some .requestWrite)
  | gaveUp {l : List Obs} (r : UInt8) (t : Int) : (∀ o ∈ l, o.marks = false) →
      r ≠ replySucceeded → Beat (some .connecting)
      (l ++ [.connectFailed, .replied r, .entered .requestWrite t]) (some .requestWrite)

theorem Beat.move {s : Option SocksState} (st : SocksState) (t : Int)
    (hs : s ≠ some .connecting) : Beat s [.entered st t] (some st) :=
  @Beat.enter s [] [] st t hs (by simp) (by simp)

theorem Beat.noted {s : Option SocksState} {o : Obs} (st : SocksState) (t : Int)
    (hs : s ≠ some .connecting) (ho : o.marks = false) : Beat s [o, .entered st t] (some st) :=
  @Beat.enter s [o] [] st t hs (fun x hx => List.mem_singleton.mp hx ▸ ho) (by simp)

theorem Move.beat {strict : Prop} {v v' : View} (h : Move strict v v') (hs : v.Sane) :
    ∃ l, v'.hist = v.hist ++ l ∧ Beat v.st l v'.st := by
  cases h with
  | received | sent | helloMore | authMore | requestMore | resolved | exhausted | reported
  | settled | relaySynced => exact ⟨[], (List.append_nil _).symm, .stay (by simp)⟩
  | @recvLost st t hst hr | @sendLost st t hst hr =>
    have hne : st ≠ .connecting := by
      intro he
      rw [he] at hr
      cases hr
    exact ⟨_, rfl, .move .error t (by rw [hst]; simpa using hne)⟩
  | start t hst | helloBad p rest t hst | helloRefused t hst | helloToAuth stale t hst
  | helloToRequest stale t hst | authBad p rest t hst | authRefused t hst
  | authToRequest stale t hst | requestBad p rest t hst | requestRefusalSent t hst
  | relayDone t hst | relayBroken d t hst =>
    exact ⟨_, rfl, .move _ t (by rw [hst]; simp)⟩
  | helloDone us p rest t hst | authDone us p rest t hst | requestLiteral p rest t hst
  | dnsFound t hst | relayUnshut d t hst =>
    exact ⟨_, List.append_assoc _ [_] [_], .noted _ t (by rw [hst]; simp) rfl⟩
  | requestSubmitted p rest k t hst =>
    exact ⟨[.requestProcessed rest, .dnsSubmit (some k), .entered .requestResolv t], by simp,
      @Beat.enter v.st [.requestProcessed rest, .dnsSubmit (some k)] [] .requestResolv t
        (by rw [hst]; simp) (by simp) (by simp)⟩
  | requestRefused p rest r t hst hrun hr =>
    refine ⟨_, by simp, @Beat.refuse v.st [.requestProcessed rest] r t (by rw [hst]; simp)
      (by simp) ?_⟩
    rcases hr with ⟨-, rfl⟩ | ⟨-, rfl⟩ <;> decide
  | requestUnsubmitted p rest t hst =>
    exact ⟨_, by simp, @Beat.refuse v.st [.requestProcessed rest, .dnsSubmit none]
      replyGeneralFailure t (by rw [hst]; simp) (by simp) (by decide)⟩
  | dnsFailed t hst =>
    exact ⟨_, by simp, @Beat.refuse v.st [.dnsConsumed []] replyHostUnreachable t
      (by rw [hst]; simp) (by simp) (by decide)⟩
  | attemptFailed | attemptUnregistered | attemptOpened | originFailed | connectTimedOut =>
    exact ⟨_, rfl, .stay (by simp)⟩
  | relayReceived d bs t hst | relayEof d t hst | relayUnread d lost t hst
  | relaySent d n fl hst | relayUnsent d lost fl hst | relayShut d shut hst =>
    cases d <;> exact ⟨_, rfl, .stay (by simp)⟩
  | gaveUp t hst =>
    simp only [Sane, hst] at hs
    obtain ⟨-, -, ⟨cn, hcn, hne⟩, -⟩ := hs
    rw [hst]
    exact ⟨_, by simp, @Beat.gaveUp [] v.orig.asConn.reply t (by simp) (by rw [hcn]; exact hne)⟩
  | connected fd t hst =>
    rw [hst]
    exact ⟨_, by simp, .connected v.og.reported (some v.og.conn) t⟩
  | originGaveUp fd e t hst =>
    rw [hst]
    exact ⟨_, by simp, @Beat.gaveUp [.completed (some e) v.og.reported (some v.og.conn)]
      (errnoToSocksReply e) t (by simp) (errnoToSocksReply_ne e)⟩
  | relayStarted t hst =>
    exact ⟨_, startRelay_grown v t, @Beat.enter v.st []
      (.relayStart v.cl.rx.length v.drained.cl.tx.length v.rb ::
        (v.drained.openRecord t).toList.map .logged) .copy t (by rw [hst]; simp) (by simp) (by simp)⟩

/-! ## Every session -/

/-- What a history says about the session's time in CONNECTING. -/
structure View.Scored (v : View) : Prop where
  standing : standing none v.hist = v.st
  entered : entries .connecting v.hist =
    connections v.hist + failures v.hist + if v.st = some .connecting then 1 else 0
  ok : connections v.hist = successes v.hist
  failed : failures v.hist = givenUp v.hist

section Sessions
variable {strict : Prop} {v v' : View} {l : List Obs}

theorem View.Scored.grow (h : v.Scored) (hl : v'.hist = v.hist ++ l)
    (hs : Socks5d.standing v.st l = v'.st)
    (he : entries .connecting l + (if v.st = some .connecting then 1 else 0) =
      connections l + failures l + if v'.st = some .connecting then 1 else 0)
    (ho : connections l = successes l)
    (hf : failures l = (repliesIn .connecting v.st l).countP (· ≠ replySucceeded)) :
    v'.Scored where
  standing := by rw [hl, standing_append, h.standing, hs]
  entered := by
    have := h.entered
    rw [hl, entries_append, connections_append, failures_append]
    omega
  ok := by rw [hl, connections_append, successes_append, h.ok, ho]
  failed := by rw [hl, failures_append, givenUp_append, h.standing, h.failed, hf]

theorem Beat.scored (hb : Beat v.st l v'.st) (hl : v'.hist = v.hist ++ l) (h : v.Scored) :
    v'.Scored := by
  generalize hs : v.st = s at hb
  generalize hs' : v'.st = s' at hb
  cases hb with
  | stay hn =>
    obtain ⟨h1, h2, h3, h4⟩ := counts_unmarked .connecting hn
    refine h.grow hl ?_ ?_ ?_ ?_
    · rw [standing_unmarked _ hn, hs, hs']
    · rw [h1, h2, h3, hs, hs']
    · rw [h2, h4]
    · rw [h3, repliesIn_unmarked _ hn]
      rfl
  | @enter _ a b st t hne hn hn' =>
    obtain ⟨h1, h2, h3, h4⟩ := counts_unmarked .connecting hn
    obtain ⟨h5, h6, h7, h8⟩ := counts_unmarked .connecting hn'
    refine h.grow hl ?_ ?_ ?_ ?_
    · rw [standing_append, standing_append, standing_unmarked _ hn, hs', standing_unmarked _ hn']
      rfl
    · rw [entries_append, entries_append, connections_append, connections_append, failures_append,
        failures_append, h1, h2, h3, h5, h6, h7, hs, hs', if_neg hne]
      by_cases hst : st = .connecting <;> simp [entries, hst]
    · rw [connections_append, connections_append, successes_append, successes_append, h2, h4, h6, h8]
      rfl
    · rw [failures_append, failures_append, repliesIn_append, repliesIn_append, h3, h7,
        repliesIn_unmarked _ hn, repliesIn_unmarked _ hn']
      rfl
  | @refuse _ a r t hne hn hr =>
    obtain ⟨h1, h2, h3, h4⟩ := counts_unmarked .connecting hn
    refine h.grow hl ?_ ?_ ?_ ?_
    · rw [standing_append, hs']
      rfl
    · rw [entries_append, connections_append, failures_append, h1, h2, h3, hs, hs', if_neg hne]
      rfl
    · rw [connections_append, successes_append, h2, h4]
      simp [successes, hr]
    · rw [failures_append, repliesIn_append, h3, repliesIn_unmarked _ hn, standing_unmarked _ hn, hs]
      simp [repliesIn, hne]
  | connected a k t =>
    refine h.grow hl ?_ ?_ rfl ?_
    · rw [hs']
      rfl
    · rw [hs, hs']
      rfl
    · rw [hs]
      rfl
  | @gaveUp a r t hn hr =>
    obtain ⟨h1, h2, h3, h4⟩ := counts_unmarked .connecting hn
    refine h.grow hl ?_ ?_ ?_ ?_
    · rw [standing_append, hs']
      rfl
    · rw [entries_append, connections_append, failures_append, h1, h2, h3, hs, hs']
      rfl
    · rw [connections_append, successes_append, h2, h4]
      simp [successes, hr]
    · rw [failures_append, repliesIn_append, h3, repliesIn_unmarked _ hn, standing_unmarked _ hn, hs]
      simp [repliesIn, hr]

theorem Move.scored (h : Move strict v v') (hs : v.Sane) (hv : v.Scored) : v'.Scored := by
  obtain ⟨l, hl, hb⟩ := h.beat hs
  exact hb.scored hl hv

theorem Reached.scored (h : Reached strict v) : v.Scored :=
  h.induct (fun _ _ => ⟨rfl, rfl, rfl, rfl⟩) fun hs hv hm => hm.scored hs hv

/-- A session is not in CONNECTING when it ends, and ending it counts nothing. -/
theorem Final.scored {fair : View → Limit → Int → Prop} {u : View} {l : List Obs}
    (h : Final fair u l) (hu : u.Scored) : (u.filed l).Scored ∧ u.st ≠ some .connecting := by
  have hl : ∀ o ∈ l, o.marks = false := fun o ho => by
    have hc := h.closing o ho
    cases o with
    | timedOut | logged | released => rfl
    | _ => cases hc
  have hstay : Beat u.st l (u.filed l).st := .stay hl
  refine ⟨hstay.scored rfl hu, ?_⟩
  obtain ⟨t, reason, he⟩ := h
  cases he with
  | finished hst => rcases hst with hst | hst <;> rw [hst] <;> simp
  | timedOut lim t' hx =>
    cases lim with
    | negotiation => exact hx.2.1
    | connect => exact hx.elim
    | idle n => rw [hx.1]; simp

/-! ## Refusals of AUTH -/

/-- The replies of AUTH with a status other than zero in what a client has been
sent and is yet to be sent: there is one behind the choice of the method, or none. -/
def authRefusals : Bytes → Nat
  | version :: method :: authVer :: status :: _ =>
    if version = socksVersion ∧ method = helloUsernamePassword ∧ authVer = authVersion ∧
      status ≠ 0x00 then 1 else 0
  | _ => 0

/-- What a client has been sent and is yet to be sent. -/
def View.output (v : View) : Bytes := v.cl.tx ++ v.wb

theorem refusals_verdicts (h : List Obs) : refusals (verdicts h) = refusals h := by
  unfold refusals verdicts
  rw [List.countP_filter]
  congr 1
  funext o
  cases o <;> simp

theorem Overture.refusals {bs : Bytes} (h : Overture bs) (r : UInt8) (rest : Bytes) :
    authRefusals (bs ++ replyBytes r ++ rest) = 0 := by
  rcases h with rfl | rfl <;> rfl

theorem Cleared.refusals {ns : List Obs} {got user : Bytes} (h : Cleared ns got user) (r : UInt8) :
    refusals (ns ++ [.replied r]) = 0 := by
  cases h <;> rfl

theorem Course.refusals {ns : List Obs} {got user : Bytes} (h : Course ns got user) :
    refusals ns = authRefusals (spoken ns) := by
  cases h with
  | silent | chosen => rfl
  | judged => simp [authRefusals]
  | replied r hc =>
    have hout := hc.overture.refusals r []
    rw [List.append_nil] at hout
    rw [spoken_append, hc.refusals r]
    exact hout.symm

/-- Every refusal on record has been queued for the client. -/
theorem Reached.refused (h : Reached strict v) : refusals v.hist = authRefusals v.output := by
  obtain ⟨ns, got, user, hcourse, ht, -⟩ := h.script.course
  have hsaid := h.voiced.said
  unfold View.output
  rw [hsaid, ← spoken_verdicts, ← refusals_verdicts, ht.verdicts]
  by_cases hrx : v.og.rx = []
  · rw [hrx, List.append_nil]
    exact hcourse.refusals
  · obtain ⟨ns', got', user', hc, hv⟩ := h.announced hrx
    rw [← ht.verdicts, hv, hc.refusals, spoken_append]
    exact (hc.overture.refusals _ _).symm

theorem Final.refused {fair : View → Limit → Int → Prop} {u : View} {l : List Obs}
    (h : Final fair u l) (hu : Reached strict u) :
    refusals (u.filed l).hist = authRefusals (u.filed l).output := by
  have hl : refusals l = 0 := List.countP_eq_zero.mpr fun o ho => by
    have hc := h.closing o ho
    cases o <;> first | exact Bool.false_ne_true | cases hc
  show refusals (u.hist ++ l) = authRefusals u.output
  rw [refusals_append, hl]
  exact hu.refused

end Sessions

/-! ## All sessions -/

/-- The histories of the sessions there are and were. -/
def World.past (w : World) (act : List Ptr) : List (List Obs) :=
  (act.map fun p => (w.mem p).hist) ++ w.ended.map fun e => e.s.hist

/-- What the clients of these sessions have been sent, and are yet to be sent. -/
def World.outputs (w : World) (act : List Ptr) : List Bytes :=
  (act.map fun p => (w.ctx p).view.output) ++ w.ended.map fun e => e.view.output

/-- How many sessions are waiting for their origins. -/
def World.connecting (w : World) (act : List Ptr) : Nat :=
  act.countP fun p => (w.mem p).stm = some .connecting

section Sums
variable {τ : Terms} {ρ : Roster} {w : World} {α : Type}

theorem sum_split {a b c : α → Nat} {P : α → Bool} : ∀ {l : List α},
    (∀ x ∈ l, a x = b x + c x + if P x = true then 1 else 0) →
    (l.map a).sum = (l.map b).sum + (l.map c).sum + l.countP P
  | [], _ => rfl
  | x :: l, h => by
    have h1 := h x List.mem_cons_self
    have h2 := sum_split fun y hy => h y (List.mem_cons_of_mem x hy)
    simp only [List.map_cons, List.sum_cons, List.countP_cons]
    omega

/-- Every history of a run has its score. -/
theorem Orderly.scored (h : Orderly τ ρ w) {x : List Obs} (hx : x ∈ w.past ρ.act) :
    ∃ v : View, v.Scored ∧ v.hist = x := by
  rcases List.mem_append.mp hx with hx | hx
  · obtain ⟨p, hp, rfl⟩ := List.mem_map.mp hx
    exact ⟨_, (h.inv.reached p hp).scored, rfl⟩
  · obtain ⟨e, he, rfl⟩ := List.mem_map.mp hx
    obtain ⟨u, l, hr, hf, hv⟩ := (h.inv.ended e he).final
    exact ⟨_, (hf.scored hr.scored).1, by rw [← hv]; rfl⟩

theorem Orderly.entered (h : Orderly τ ρ w) : totalOf (entries .connecting) (w.past ρ.act) =
    totalOf connections (w.past ρ.act) + totalOf failures (w.past ρ.act) +
      w.connecting ρ.act := by
  have hact := sum_split (l := ρ.act) (a := fun p => entries .connecting (w.mem p).hist)
    (b := fun p => connections (w.mem p).hist) (c := fun p => failures (w.mem p).hist)
    (P := fun p => (w.mem p).stm = some .connecting) fun p hp => by
      have hs := (h.inv.reached p hp).scored.entered
      simp only [decide_eq_true_eq]
      exact hs
  have hended := sum_split (l := w.ended) (a := fun e => entries .connecting e.s.hist)
    (b := fun e => connections e.s.hist) (c := fun e => failures e.s.hist)
    (P := fun _ => false) fun e he => by
      obtain ⟨u, l, hr, hf, hv⟩ := (h.inv.ended e he).final
      obtain ⟨hs, hne⟩ := hf.scored hr.scored
      have hs := hs.entered
      rw [← hv] at hs
      have hne : e.view.st ≠ some .connecting := by rw [hv]; exact hne
      rw [if_neg hne] at hs
      exact hs
  have hnone : w.ended.countP (fun _ => false) = 0 := List.countP_false ▸ rfl
  unfold totalOf World.past World.connecting
  simp only [List.map_append, List.sum_append, List.map_map]
  simp only [Function.comp_def]
  omega

theorem Orderly.refused (h : Orderly τ ρ w) :
    totalOf refusals (w.past ρ.act) = ((w.outputs ρ.act).map authRefusals).sum := by
  unfold totalOf World.past World.outputs
  simp only [List.map_append, List.map_map]
  refine congrArg List.sum (congrArg₂ _ (List.map_congr_left fun p hp => ?_)
    (List.map_congr_left fun e he => ?_))
  · exact (h.inv.reached p hp).refused
  · obtain ⟨u, l, hr, hf, hv⟩ := (h.inv.ended e he).final
    have hrefused := hf.refused hr
    rw [← hv] at hrefused
    exact hrefused

end Sums

/-- Every session that entered CONNECTING is there still, or was counted once;
it was counted as the reply it was answered with says. The refusals that were
counted are those that were queued. -/
theorem outcomes_exact (b : Boot) (is : List Input) :
    ∃ act m, (b.start.run is).Roll act ∧ (b.start.run is).g.metrics = some m ∧
      m.originOk + m.originFail + UInt64.ofNat ((b.start.run is).connecting act) =
        UInt64.ofNat (totalOf (entries .connecting) ((b.start.run is).past act)) ∧
      m.originOk = UInt64.ofNat (totalOf successes ((b.start.run is).past act)) ∧
      m.originFail = UInt64.ofNat (totalOf givenUp ((b.start.run is).past act)) ∧
      m.authFail = UInt64.ofNat (((b.start.run is).outputs act).map authRefusals).sum := by
  obtain ⟨ρ, h⟩ := b.orderly is
  obtain ⟨m, log, hm, -, hacc⟩ := h.inv.ledgers.accounts
  have hok : totalOf connections ((b.start.run is).past ρ.act) =
      totalOf successes ((b.start.run is).past ρ.act) :=
    congrArg List.sum (List.map_congr_left fun x hx => by
      obtain ⟨v, hv, rfl⟩ := h.scored hx
      exact hv.ok)
  have hfail : totalOf failures ((b.start.run is).past ρ.act) =
      totalOf givenUp ((b.start.run is).past ρ.act) :=
    congrArg List.sum (List.map_congr_left fun x hx => by
      obtain ⟨v, hv, rfl⟩ := h.scored hx
      exact hv.failed)
  refine ⟨ρ.act, m, h.roll, hm, ?_, ?_, ?_,
    h.refused ▸ hacc.tally.authFail⟩
  · rw [h.entered, UInt64.ofNat_add, UInt64.ofNat_add, hacc.tally.originOk, hacc.tally.originFail]
    rfl
  · rw [← hok]
    exact hacc.tally.originOk
  · rw [← hfail]
    exact hacc.tally.originFail

end Socks5d
