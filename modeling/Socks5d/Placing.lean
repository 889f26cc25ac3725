import Socks5d.Hearing

/-! # Where a session stands in the stream of its client

The rulings on HELLO and AUTH are about the front of the stream, the request about
what comes behind it, and the relay takes up the stream where the request ends. -/
namespace Socks5d
open Ctx View Lib.CString Lib.Incremental Lib.Readers Lib.Readers.Reading

/-- The states between the request and the relay; nothing is read in them. -/
def SocksState.deaf : SocksState → Bool
  | .requestResolv | .connecting | .requestWrite => true
  | _ => false

/-- Where the request of a session stands in the stream `rx` behind `got`. -/
def View.Petition (v : View) (got : Bytes) : Prop :=
  match v.dest with
  | none => v.st ≠ some .requestResolv ∧ v.st ≠ some .connecting ∧ starts v.hist = [] ∧
      ∀ r, .replied r ∈ v.hist → (∃ user, Cleared (rulings v.hist) got user) ∧
        ∃ e rest after, v.cl.rx = got ++ rest ∧ decodeRequest rest = failed e after ∧ e.reply = some r
  | some d => (∃ user, Cleared (rulings v.hist) got user) ∧
      ∃ (rsv : UInt8) (m : Connect) (rest : Bytes), v.cl.rx = got ++ (m.encode rsv ++ rest) ∧
        d = (m.host.text, m.port) ∧ (∀ st, v.st = some st → st.deaf = true → rest = v.rb) ∧
        ∀ g s left, .relayStart g s left ∈ v.hist →
          g = (got ++ m.encode rsv).length + left.length

/-- The rulings are about the front of the stream, the request about what follows. -/
structure View.Placed (v : View) : Prop where
  behind : covered v.hist <+: v.cl.rx
  request : v.Petition (covered v.hist)

section Placed
variable {strict : Prop} {v v' : View} {l : List Obs} {b : Bytes}

theorem Obs.unstarted {h : List Obs} (hs : starts h = []) {g s : Nat} {left : Bytes} :
    .relayStart g s left ∉ h := fun hm => by
  have hmem := mem_starts.mpr hm
  rw [hs] at hmem
  cases hmem

/-- Nothing is ruled, and no relay starts; a reply is queued only behind a request. -/
theorem View.Placed.grow (h : v.Placed) (hh : v'.hist = v.hist ++ l) (hl : rulings l = [])
    (hs : starts l = []) (hr : ∀ r, .replied r ∈ l → v.dest ≠ none) (hd : v'.dest = v.dest)
    (hrx : v'.cl.rx = v.cl.rx ++ b)
    (hst : ∀ st', v'.st = some st' → st'.deaf = true →
      (∃ st, v.st = some st ∧ st.deaf = true ∧ (st = .requestWrite → st' = .requestWrite)) ∧
        b = [] ∧ v'.rb = v.rb) : v'.Placed := by
  have hcov : covered v'.hist = covered v.hist := by rw [hh, covered_silent hl]
  have hrul : rulings v'.hist = rulings v.hist := by
    rw [hh, rulings_append, hl, List.append_nil]
  obtain ⟨hbehind, hreq⟩ := h
  refine ⟨by rw [hcov, hrx]; exact hbehind.trans (List.prefix_append ..), ?_⟩
  rw [hcov]
  unfold View.Petition at hreq ⊢
  rw [hd, hrul]
  cases hdest : v.dest with
  | none =>
    rw [hdest] at hreq
    obtain ⟨h1, h2, hstarts, hrefused⟩ := hreq
    have hkeep : ∀ st', st' ≠ .requestWrite → st'.deaf = true → v'.st ≠ some st' := by
      intro st' hne hask he
      obtain ⟨⟨st, hst0, hask0, hw⟩, -⟩ := hst st' he hask
      cases st with
      | requestResolv => exact h1 hst0
      | connecting => exact h2 hst0
      | requestWrite => exact hne (hw rfl)
      | _ => cases hask0
    refine ⟨hkeep _ SocksState.noConfusion rfl, hkeep _ SocksState.noConfusion rfl, ?_, ?_⟩
    · rw [hh, starts_append, hstarts, hs]
      rfl
    · intro r hm
      rw [hh, List.mem_append] at hm
      rcases hm with hm | hm
      · obtain ⟨hcl, e, rest, after, hx, hf, he⟩ := hrefused r hm
        exact ⟨hcl, e, rest ++ b, after ++ b, by rw [hrx, hx, List.append_assoc],
          decodeRequest_extend hf b, he⟩
      · exact absurd hdest (hr r hm)
  | some d =>
    rw [hdest] at hreq
    obtain ⟨hcl, rsv, m, rest, hx, he, hrb, hstart⟩ := hreq
    refine ⟨hcl, rsv, m, rest ++ b, by rw [hrx, hx]; simp, he, ?_, ?_⟩
    · intro st' hst' hask
      obtain ⟨⟨st, hst0, hask0, -⟩, rfl, hb⟩ := hst st' hst' hask
      rw [List.append_nil, hb]
      exact hrb st hst0 hask0
    · intro g s left hm
      rw [hh, List.mem_append] at hm
      rcases hm with hm | hm
      · exact hstart g s left hm
      · exact absurd hm (Obs.unstarted hs)

theorem Obs.running_silent (hl : ∀ o ∈ l, o.running = true) :
    rulings l = [] ∧ starts l = [] ∧ ∀ r, .replied r ∉ l := by
  refine ⟨List.filter_eq_nil_iff.mpr ?_, List.filterMap_eq_nil_iff.mpr ?_, ?_⟩
  · intro o ho
    have hr := hl o ho
    cases o <;> first | exact Bool.false_ne_true | cases hr
  · intro o ho
    have hr := hl o ho
    cases o <;> first | rfl | cases hr
  · intro r hm
    cases hl _ hm

theorem RelayMove.placed (h : RelayMove v v') (hp : v.Tunnel) (hv : v.Placed) : v'.Placed := by
  obtain ⟨l, hh, hrun⟩ := h.grows
  obtain ⟨-, hd, -⟩ := h.keeps
  obtain ⟨bs, hrx⟩ := h.received_more
  obtain ⟨hl, hs, hr⟩ := Obs.running_silent hrun
  refine hv.grow hh hl hs (fun r hm => absurd hm (hr r)) hd hrx fun st' hst' hask => ?_
  rcases h.tunnel hp with ht | ht | ht <;> rw [ht] at hst' <;> cases hst' <;> cases hask

/-- A ruling puts the front of the stream where it ends. -/
theorem View.Placed.ruled (hv : v.Placed) {o : Obs} {got rest : Bytes} {st : SocksState} {t : Int}
    (hh : v'.hist = v.hist ++ [o, .entered st t]) (ho : o.covers = some got)
    (hx : v.cl.rx = got ++ rest) (hrx : v'.cl.rx = v.cl.rx) (hd : v.dest = none)
    (hd' : v'.dest = v.dest) (hr : ∀ r, .replied r ∉ v.hist) (hst : v'.st = some st)
    (hask : st.deaf = false) : v'.Placed := by
  have hcov : covered v'.hist = got := by rw [hh]; exact covered_ruled ho rfl
  have hreq := hv.request
  refine ⟨by rw [hcov, hrx, hx]; exact List.prefix_append .., ?_⟩
  unfold View.Petition at hreq ⊢
  rw [hd] at hreq
  rw [hd', hd, hst]
  obtain ⟨-, -, hs, -⟩ := hreq
  have hother : ∀ st', st'.deaf = true → some st ≠ some st' := by
    intro st' ha he
    rw [Option.some.inj he, ha] at hask
    cases hask
  refine ⟨hother _ rfl, hother _ rfl, ?_, ?_⟩
  · rw [hh, starts_append, hs]
    cases o <;> first | rfl | cases ho
  · intro r hm
    rw [hh, List.mem_append] at hm
    rcases hm with hm | hm
    · exact absurd hm (hr r)
    · rcases List.mem_pair.mp hm with rfl | hm
      · cases ho
      · cases hm

/-- What the parser of a request had seen when its session looks at the buffer. -/
theorem View.Script.asking (hc : v.Script) (hs : v.Sane) (hst : v.st = some .requestRead)
    {p : RequestParser} {rest : Bytes} {e : Bool}
    (hrun : requestRun v.client.asRequest.parser v.rb = ((p, e), rest)) :
    ∃ got user stale seen, Cleared (verdicts v.hist) got user ∧ v.dest = none ∧
      covered v.hist = got ∧ v.cl.rx = got ++ (seen ++ v.rb) ∧
      requestRun (requestStart stale).parser (seen ++ v.rb) = ((p, e), rest) := by
  simp only [Sane, hst] at hs
  obtain ⟨-, -, -, q, hq, hstop, -⟩ := hs
  have hparser : v.client.asRequest.parser = q.parser := by rw [hq]; rfl
  simp only [Script, hst] at hc
  obtain ⟨ns, got, user, hcl, ht, hdest, stale, seen, hseen, hbefore⟩ := hc
  rw [hparser] at hbefore hrun
  have hv := ht.verdicts
  refine ⟨got, user, stale, seen, hv ▸ hcl, hdest, ?_, hseen,
    (feed_resume (requestStart_running stale).1 hstop hbefore).trans hrun⟩
  rw [← covered_rulings, ← rulings_verdicts, hv, covered_rulings, hcl.covered]

theorem Cleared.unreplied {ns : List Obs} {got user : Bytes} (h : Cleared ns got user) {r : UInt8} :
    .replied r ∉ ns := by
  cases h <;> simp

/-- The request stands behind the rulings, and what is behind it is in the buffer. -/
theorem View.Placed.requested (hv : v.Placed) (hc : v.Script) (hs : v.Sane)
    (hst : v.st = some .requestRead) {p : RequestParser} {rest : Bytes}
    (hrun : requestRun v.client.asRequest.parser v.rb = ((p, false), rest)) (hp : p.state = .done)
    (hh : v'.hist = v.hist ++ l) (hl : rulings l = []) (hsl : starts l = [])
    (hd : v'.dest = (v.storeDest p.request).dest) (hrx : v'.cl.rx = v.cl.rx) (hrb : v'.rb = rest) :
    v'.Placed := by
  obtain ⟨got, user, stale, seen, hcl, hdest, hcov, hx, hwhole⟩ := hc.asking hs hst hrun
  obtain ⟨rsv, m, hbs, hstored⟩ := requestRun_done hwhole hp
  have hrul : rulings v'.hist = verdicts v.hist := by
    rw [hh, rulings_append, hl, List.append_nil, ← rulings_verdicts, hcl.rulings]
  have hcov' : covered v'.hist = got := by rw [hh, covered_silent hl, hcov]
  have hreq := hv.request
  refine ⟨by rw [hcov', hrx, hx]; exact List.prefix_append .., ?_⟩
  unfold View.Petition at hreq ⊢
  rw [hdest] at hreq
  have hnow : v'.dest = some (m.host.text, m.port) := hd.trans hstored
  rw [hnow, hcov', hrul]
  refine ⟨⟨user, hcl⟩, rsv, m, rest, by rw [hrx, hx, hbs], rfl, fun _ _ _ => hrb.symm, ?_⟩
  intro g s left hm
  rw [hh, List.mem_append] at hm
  rcases hm with hm | hm
  · exact absurd hm (Obs.unstarted hreq.2.2.1)
  · exact absurd hm (Obs.unstarted hsl)

theorem Move.placed (h : Move strict v v') (hs : v.Sane) (hc : v.Script) (hv : v.Placed) :
    v'.Placed := by
  by_cases hp : v.Tunnel
  · exact (h.relay hp).placed hp hv
  have hunsaid : ∀ {ns : List Obs}, verdicts v.hist = ns → (∀ r, .replied r ∉ ns) →
      ∀ r, .replied r ∉ v.hist := fun hns hno r hm =>
    hno r (hns ▸ List.mem_filter.mpr ⟨hm, rfl⟩)
  -- a state in which the client is read, or the end
  have hread : ∀ {l : List Obs} {st : SocksState} {b : Bytes}, v'.st = some st → st.deaf = false →
      v'.hist = v.hist ++ l → rulings l = [] → starts l = [] → (∀ r, .replied r ∉ l) →
      v'.dest = v.dest → v'.cl.rx = v.cl.rx ++ b → v'.Placed :=
    fun hst' hd hh hl hsl hr hdest hrx => hv.grow hh hl hsl (fun r hm => absurd hm (hr r)) hdest hrx
      fun st' he hask => by rw [Option.some.inj (hst'.symm.trans he), hask] at hd; cases hd
  -- behind the request
  have hlate : ∀ {l : List Obs} {st st' : SocksState}, v.st = some st → st.deaf = true →
      v'.st = some st' → (st = .requestWrite → st' = .requestWrite) → v'.hist = v.hist ++ l →
      rulings l = [] → starts l = [] → ((∀ r, .replied r ∉ l) ∨ st ≠ .requestWrite) →
      v'.dest = v.dest → v'.cl.rx = v.cl.rx → v'.rb = v.rb → v'.Placed := by
    intro l st st' hst hask hst' hw hh hl hsl hr hdest hrx hrb
    refine hv.grow (b := []) hh hl hsl ?_ hdest (hrx.trans (List.append_nil _).symm) ?_
    · intro r hm hnone
      rcases hr with hr | hr
      · exact hr r hm
      · have hreq := hv.request
        unfold View.Petition at hreq
        rw [hnone] at hreq
        cases st with
        | requestResolv => exact hreq.1 hst
        | connecting => exact hreq.2.1 hst
        | requestWrite => exact hr rfl
        | _ => cases hask
    · intro s he _
      cases Option.some.inj (hst'.symm.trans he)
      exact ⟨⟨st, hst, hask, hw⟩, rfl, hrb⟩
  have hsame : v'.st = v.st → v'.hist = v.hist → v'.dest = v.dest → v'.cl.rx = v.cl.rx →
      v'.rb = v.rb → v'.Placed := fun hst hh hdest hrx hrb =>
    hv.grow (l := []) (b := []) (by rw [hh, List.append_nil]) rfl rfl (fun r hm => (by cases hm))
      hdest (by rw [hrx, List.append_nil]) fun st' he hask => ⟨⟨st', hst ▸ he, hask, id⟩, rfl, hrb⟩
  cases h with
  | start t hst =>
    exact hread (l := [.entered .helloRead t]) (b := []) rfl rfl rfl rfl rfl (by simp) rfl
      (List.append_nil _).symm
  | @received st bs hst hrd =>
    refine hread (l := []) (b := bs) hst ?_ (List.append_nil _).symm rfl rfl (by simp) rfl rfl
    cases st <;> first | rfl | cases hrd
  | recvLost t | sendLost t =>
    exact hread (l := [.entered .error t]) (b := []) rfl rfl rfl rfl rfl (by simp) rfl
      (List.append_nil _).symm
  | sent n hst => exact hsame rfl rfl rfl rfl rfl
  | reported | settled => exact hsame rfl rfl rfl rfl rfl
  | helloMore p hst | authMore p hst | requestMore p hst =>
    exact hread (l := []) (b := []) hst rfl (List.append_nil _).symm rfl rfl (by simp) rfl
      (List.append_nil _).symm
  | helloBad p rest t | authBad p rest t | requestBad p rest t =>
    exact hread (l := [.entered .error t]) (b := []) rfl rfl rfl rfl rfl (by simp) rfl
      (List.append_nil _).symm
  | helloDone us p rest t hst hrun hdone =>
    simp only [Sane, hst] at hs
    obtain ⟨-, -, -, q, hq, hstop⟩ := hs
    have hparser : v.client.asHello.parser = q.parser := by rw [hq]; rfl
    simp only [Script, hst] at hc
    obtain ⟨ht, hdest, seen, hseen, hbefore⟩ := hc
    rw [hparser] at hbefore hrun
    obtain ⟨hello, hbs, -⟩ :=
      helloRun_done ((feed_resume helloStart_running hstop hbefore).trans hrun) hdone
    have hrx : v.cl.rx = hello ++ rest := hseen.trans hbs
    exact hv.ruled (o := .helloProcessed us (v.consumed rest) (helloMethod us p.data)) (t := t)
      (by simp) rfl (by rw [consumed_eq hrx, hrx]) rfl hdest rfl
      (hunsaid ht.verdicts fun _ hm => (by cases hm)) rfl rfl
  | helloRefused t | authRefused t | requestRefusalSent t =>
    exact hread (l := [.entered .done t]) (b := []) rfl rfl rfl rfl rfl (by simp) rfl
      (List.append_nil _).symm
  | helloToAuth stale t =>
    exact hread (l := [.entered .authRead t]) (b := []) rfl rfl rfl rfl rfl (by simp) rfl
      (List.append_nil _).symm
  | helloToRequest stale t | authToRequest stale t =>
    exact hread (l := [.entered .requestRead t]) (b := []) rfl rfl rfl rfl rfl (by simp) rfl
      (List.append_nil _).symm
  | authDone us' p rest t hst hrun hdone =>
    simp only [Sane, hst] at hs
    obtain ⟨-, -, -, q, hq, hstop⟩ := hs
    have hparser : v.client.asAuth.parser = q.parser := by rw [hq]; rfl
    simp only [Script, hst] at hc
    obtain ⟨us, hello, -, ht, hdest, stale, seen, hseen, hbefore⟩ := hc
    rw [hparser] at hbefore hrun
    obtain ⟨auth, hbs, -⟩ :=
      authRun_done ((feed_resume (authStart_running stale) hstop hbefore).trans hrun) hdone
    have hrx : v.cl.rx = hello ++ auth ++ rest := by rw [hseen, hbs, List.append_assoc]
    exact hv.ruled (o := .authProcessed us' (v.consumed rest) (authStatus us' p)) (t := t)
      (by simp [processAuth]) rfl (by rw [consumed_eq hrx, hrx]) rfl hdest rfl
      (hunsaid ht.verdicts (by simp)) rfl rfl
  | requestRefused p rest reply t hst hrun hreply =>
    obtain ⟨got, user, stale, seen, hcl, hdest, hcov, hx, hwhole⟩ := hc.asking hs hst hrun
    obtain ⟨e, hfail, he⟩ := decodeRequest_refused hwhole hreply
    have hh : ((v.processRequest p rest).answer reply t).hist =
        v.hist ++ [.requestProcessed rest, .replied reply, .entered .requestWrite t] := by simp
    have hcov' : covered ((v.processRequest p rest).answer reply t).hist = got := by
      rw [hh, covered_silent rfl, hcov]
    have hreq := hv.request
    refine ⟨by rw [hcov']; exact ⟨_, hx.symm⟩, ?_⟩
    rw [hcov']
    show View.Petition _ got
    unfold View.Petition at hreq ⊢
    have hdest' : ((v.processRequest p rest).answer reply t).dest = none := hdest
    rw [hdest] at hreq
    have hrul : rulings (v.hist ++ [.requestProcessed rest, .replied reply,
        .entered .requestWrite t]) = verdicts v.hist := by
      have hnone : rulings [Obs.requestProcessed rest, .replied reply, .entered .requestWrite t] =
        [] := rfl
      rw [rulings_append, hnone, List.append_nil, ← rulings_verdicts, hcl.rulings]
    rw [hdest', hh, hrul]
    refine ⟨by simp, by simp, by rw [starts_append, hreq.2.2.1]; rfl, fun r hm => ⟨⟨user, hcl⟩, ?_⟩⟩
    have hr : r = reply := by
      rcases List.mem_append.mp hm with hm | hm
      · exact absurd hm (hunsaid rfl (fun r hm => hcl.unreplied hm) r)
      · simpa using hm
    rw [hr]
    exact ⟨e, seen ++ v.rb, rest, hx, hfail, he⟩
  | requestUnsubmitted p rest t hst hrun hdone =>
    exact hv.requested hc hs hst hrun hdone (l := [.requestProcessed rest, .dnsSubmit none,
      .replied replyGeneralFailure, .entered .requestWrite t]) (by simp) rfl rfl rfl rfl rfl
  | requestSubmitted p rest k t hst hrun hdone =>
    exact hv.requested hc hs hst hrun hdone (l := [.requestProcessed rest, .dnsSubmit (some k),
      .entered .requestResolv t]) (by simp) rfl rfl rfl rfl rfl
  | requestLiteral p rest t hst hrun hdone =>
    exact hv.requested hc hs hst hrun hdone (l := [.requestProcessed rest, .entered .connecting t])
      (by simp) rfl rfl rfl rfl rfl
  | resolved | exhausted => exact hsame rfl rfl rfl rfl rfl
  | dnsFailed t hst =>
    exact hlate (l := [.dnsConsumed [], .replied replyHostUnreachable, .entered .requestWrite t])
      hst rfl rfl (fun _ => rfl) (by simp) rfl rfl (Or.inr SocksState.noConfusion) rfl rfl rfl
  | dnsFound t hst =>
    exact hlate (l := [.dnsConsumed v.found, .entered .connecting t]) hst rfl rfl
      SocksState.noConfusion (by simp) rfl rfl (Or.inr SocksState.noConfusion) rfl rfl rfl
  | attemptFailed a rest e ha | attemptUnregistered a rest ha | attemptOpened a rest fd k ha =>
    exact hlate ha.1 rfl ha.1 id rfl rfl rfl (Or.inr SocksState.noConfusion) rfl rfl rfl
  | gaveUp t hst =>
    exact hlate (l := [.connectFailed, .replied v.orig.asConn.reply, .entered .requestWrite t]) hst
      rfl rfl (fun _ => rfl) (by simp) rfl rfl (Or.inr SocksState.noConfusion) rfl rfl rfl
  | connected fd t hst =>
    exact hlate (l := [.completed none v.og.reported (some v.og.conn), .replied replySucceeded,
      .entered .requestWrite t]) hst rfl rfl (fun _ => rfl) (by simp) rfl rfl
      (Or.inr SocksState.noConfusion) rfl rfl rfl
  | originFailed fd e hst =>
    exact hlate (l := [.completed (some e) v.og.reported (some v.og.conn)]) hst rfl hst id rfl rfl
      rfl (Or.inr SocksState.noConfusion) rfl rfl rfl
  | originGaveUp fd e t hst =>
    exact hlate (l := [.completed (some e) v.og.reported (some v.og.conn), .connectFailed,
      .replied (errnoToSocksReply e), .entered .requestWrite t]) hst rfl rfl (fun _ => rfl)
      (by simp) rfl rfl (Or.inr SocksState.noConfusion) rfl rfl rfl
  | connectTimedOut t hst =>
    exact hlate (l := [.timedOut .connect t]) hst rfl hst id rfl rfl rfl
      (Or.inr SocksState.noConfusion) rfl rfl rfl
  | relayStarted t hst hr =>
    have htold : .replied replySucceeded ∈ v.hist := by
      simp only [Script, hst] at hc
      obtain ⟨ns, got, user, -, ht, -⟩ := hc
      have hm : .replied replySucceeded ∈ verdicts v.hist := by
        rw [ht.verdicts, hr]
        exact List.mem_append_right _ (List.mem_singleton_self _)
      exact (List.mem_filter.mp hm).1
    have hlog : rulings ((v.drained.openRecord t).toList.map Obs.logged) = [] ∧
        starts ((v.drained.openRecord t).toList.map Obs.logged) = [] := by
      cases v.drained.openRecord t <;> exact ⟨rfl, rfl⟩
    have hh := startRelay_grown v t
    have hcov : covered (v.drained.startRelay t).hist = covered v.hist := by
      rw [hh]
      exact covered_silent (by rw [rulings_append, hlog.1]; rfl)
    have hrul : rulings (v.drained.startRelay t).hist = rulings v.hist := by
      rw [hh, rulings_append, rulings_append, hlog.1]
      exact List.append_nil _
    obtain ⟨hbehind, hreq⟩ := hv
    refine ⟨by rw [hcov]; exact hbehind, ?_⟩
    rw [hcov]
    unfold View.Petition at hreq ⊢
    have hdest : (v.drained.startRelay t).dest = v.dest := rfl
    rw [hdest]
    cases hd : v.dest with
    | none =>
      -- a success is no answer to a faulty request
      rw [hd] at hreq
      obtain ⟨-, e, -, -, -, -, he⟩ := hreq.2.2.2 _ htold
      cases e <;> exact absurd he (by decide)
    | some d =>
      rw [hd] at hreq
      obtain ⟨hcl, rsv, m, rest, hx, he, hrb, hstart⟩ := hreq
      have hrest : rest = v.rb := hrb _ hst rfl
      refine ⟨hrul ▸ hcl, rsv, m, rest, hx, he, fun st' hst' hask => ?_, fun g s left hm => ?_⟩
      · cases Option.some.inj hst'
        cases hask
      · rw [hh, List.mem_append] at hm
        rcases hm with hm | hm
        · exact hstart g s left hm
        · have hmem := mem_starts.mpr hm
          rw [starts_append, hlog.2, List.append_nil] at hmem
          cases List.mem_singleton.mp hmem
          rw [hx, hrest, ← List.append_assoc, List.length_append]
  | _ => exact absurd (Or.inl ‹v.st = some .copy›) hp

end Placed

end Socks5d
