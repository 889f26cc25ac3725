import Socks5d.Placing

/-! # The pieces a stream comes in do not matter

A session keeps to what the store makes of the bytes its client sends: at each
moment what it has ruled, stored and entered is what the stream as a whole calls
for, as far as it has been seen. Two sessions over one stream then agree. -/
namespace Socks5d
open Ctx View Lib.CString Lib.Incremental Lib.Readers Lib.Readers.Reading

/-! ## The states of a negotiation -/

/-- Where the client goes when it has the answer to its HELLO. -/
def methodLeads (m : UInt8) : List SocksState :=
  if m = helloNoAcceptableMethods then []
  else if m = helloUsernamePassword then [.authRead] else [.requestRead]

def statusLeads (status : UInt8) : List SocksState := if status = 0x00 then [.requestRead] else []

/-- The states a ruling leads through. -/
@[simp] def Obs.leads : Obs → List SocksState
  | .helloProcessed _ _ m => .helloWrite :: methodLeads m
  | .authProcessed _ _ status => .authWrite :: statusLeads status
  | _ => []

/-- The states of a negotiation with these rulings. -/
def itinerary (rs : List Obs) : List SocksState := .helloRead :: rs.flatMap Obs.leads

def SocksState.negotiates : SocksState → Bool
  | .helloRead | .helloWrite | .authRead | .authWrite | .requestRead => true
  | _ => false

@[simp] def Obs.stop : Obs → Option SocksState
  | .entered st _ => if st.negotiates then some st else none
  | _ => none

/-- The states of the negotiation a history went through, in their order. -/
def stops (h : List Obs) : List SocksState := h.filterMap Obs.stop

@[simp] theorem stops_append (h l : List Obs) : stops (h ++ l) = stops h ++ stops l := by
  simp [stops]

theorem itinerary_append (rs l : List Obs) :
    itinerary (rs ++ l) = itinerary rs ++ l.flatMap Obs.leads := by
  simp [itinerary]

/-- A session has been where its rulings lead, but for the answer it still sends. -/
def View.Routed (v : View) : Prop :=
  match v.st with
  | none => stops v.hist = [] ∧ rulings v.hist = []
  | some .helloWrite => stops v.hist ++ methodLeads v.client.asHello.method =
      itinerary (rulings v.hist)
  | some .authWrite => stops v.hist ++ statusLeads v.client.asAuth.status =
      itinerary (rulings v.hist)
  | some .done | some .error => stops v.hist <+: itinerary (rulings v.hist)
  | some _ => stops v.hist = itinerary (rulings v.hist)

section Routed
variable {strict : Prop} {v v' : View} {l : List Obs}

theorem View.Routed.within (h : v.Routed) : stops v.hist <+: itinerary (rulings v.hist) := by
  unfold View.Routed at h
  split at h
  · rw [h.1]
    exact List.nil_prefix
  · exact ⟨_, h⟩
  · exact ⟨_, h⟩
  · exact h
  · exact h
  · rw [h]

theorem View.Routed.ended (h : v.Routed) (hst : v'.st = some .done ∨ v'.st = some .error)
    (hh : v'.hist = v.hist ++ l) (hs : stops l = []) (hr : rulings l = []) : v'.Routed := by
  have hw := h.within
  unfold View.Routed
  have hwithin : stops v'.hist <+: itinerary (rulings v'.hist) := by
    rw [hh, stops_append, rulings_append, hs, hr, List.append_nil, List.append_nil]
    exact hw
  rcases hst with hst | hst <;> rw [hst] <;> exact hwithin

theorem View.Routed.congr (h : v.Routed) (hst : v'.st = v.st) (hh : v'.hist = v.hist ++ l)
    (hs : stops l = []) (hr : rulings l = [])
    (hm : v.st = some .helloWrite → v'.client.asHello.method = v.client.asHello.method)
    (ha : v.st = some .authWrite → v'.client.asAuth.status = v.client.asAuth.status) :
    v'.Routed := by
  unfold View.Routed at h ⊢
  rw [hst, hh, stops_append, rulings_append, hs, hr, List.append_nil, List.append_nil]
  split at h
  · exact h
  · next hw => rw [hm hw]; exact h
  · next hw => rw [ha hw]; exact h
  · exact h
  · exact h
  · exact h

/-- A ruling leads to the state that sends its answer. -/
theorem itinerary_ruled {h h' : List Obs} (hv : stops h = itinerary (rulings h)) {o : Obs}
    {st : SocksState} {next : List SocksState} {t : Int} (hr : o.rules = true)
    (hl : o.leads = st :: next) (hh : h' = h ++ [o, .entered st t]) (hn : st.negotiates = true) :
    stops h' ++ next = itinerary (rulings h') := by
  have hstop : o.stop = none := by cases o <;> first | rfl | cases hr
  have hs : stops [o, .entered st t] = [st] := by
    unfold stops
    rw [List.filterMap_cons_none hstop]
    simp [hn]
  have ho : rulings [o, .entered st t] = [o] := by
    unfold rulings
    rw [List.filter_cons_of_pos hr]
    rfl
  rw [hh, stops_append, rulings_append, hs, ho, itinerary_append, hv, List.append_assoc,
    List.flatMap_singleton, hl]
  rfl

/-- The answer sent, the session is where it leads. -/
theorem itinerary_entered {h : List Obs} {st : SocksState}
    (hv : stops h ++ [st] = itinerary (rulings h)) (hn : st.negotiates = true) (t : Int) :
    stops (h ++ [.entered st t]) = itinerary (rulings (h ++ [.entered st t])) := by
  have hs : stops [.entered st t] = [st] := by simp [stops, hn]
  have ho : rulings [.entered st t] = [] := rfl
  rw [stops_append, rulings_append, hs, ho, List.append_nil, hv]

theorem RelayMove.still (h : RelayMove v v') (hst : v'.st = some .copy) :
    v.st = some .copy := by
  cases h with
  | unshut | finished | broken => cases hst
  | network => exact hst
  | _ => assumption

theorem RelayMove.routed (h : RelayMove v v') (hp : v.Tunnel) (hv : v.Routed) : v'.Routed := by
  obtain ⟨l, hh, hrun⟩ := h.grows
  obtain ⟨hr, -, -⟩ := Obs.running_silent hrun
  have hs : stops l = [] := List.filterMap_eq_nil_iff.mpr fun o ho => by
    have hro := hrun o ho
    cases o with
    | entered st t => cases st <;> first | rfl | cases hro
    | _ => rfl
  rcases h.tunnel hp with hst | hst
  · have hwas := h.still hst
    exact hv.congr (hst.trans hwas.symm) hh hs hr (fun he => by cases hwas.symm.trans he)
      fun he => by cases hwas.symm.trans he
  · exact hv.ended hst hh hs hr

theorem Move.routed (h : Move strict v v') (hv : v.Routed) : v'.Routed := by
  have hsame : ∀ {l : List Obs}, v'.st = v.st → v'.hist = v.hist ++ l → stops l = [] →
      rulings l = [] → v'.client = v.client → v'.Routed := fun hst hh hs hr hc =>
    hv.congr hst hh hs hr (fun _ => by rw [hc]) fun _ => by rw [hc]
  -- from one state the rulings lead to all the way to another
  have hpass : ∀ {l : List Obs} {st st' : SocksState}, v.st = some st → v'.st = some st' →
      v'.hist = v.hist ++ l → stops l = [] → rulings l = [] →
      (st = .requestRead ∨ st = .requestResolv ∨ st = .connecting ∨ st = .requestWrite) →
      (st' = .requestResolv ∨ st' = .connecting ∨ st' = .requestWrite ∨ st' = .copy) →
      v'.Routed := by
    intro l st st' hst hst' hh hs hr hfrom hto
    unfold View.Routed at hv ⊢
    rw [hst] at hv
    rw [hst', hh, stops_append, rulings_append, hs, hr, List.append_nil, List.append_nil]
    have hv : stops v.hist = itinerary (rulings v.hist) := by
      rcases hfrom with rfl | rfl | rfl | rfl <;> exact hv
    rcases hto with rfl | rfl | rfl | rfl <;> exact hv
  by_cases hp : v.Tunnel
  · exact (h.relay hp).routed hp hv
  cases h with
  | start t hst =>
    unfold View.Routed at hv
    rw [hst] at hv
    have hgo : stops (v.hist ++ [.entered .helloRead t]) =
        itinerary (rulings (v.hist ++ [.entered .helloRead t])) := by
      rw [stops_append, rulings_append, hv.1, hv.2]
      rfl
    exact hgo
  | received | sent | reported | settled | resolved | exhausted =>
    exact hsame (l := []) rfl (List.append_nil _).symm rfl rfl rfl
  | recvLost t | sendLost t =>
    exact hv.ended (l := [.entered .error t]) (Or.inr rfl) rfl rfl rfl
  | helloMore p hst =>
    exact hv.congr (l := []) rfl (List.append_nil _).symm rfl rfl
      (fun he => by cases hst.symm.trans he) fun he => by cases hst.symm.trans he
  | authMore p hst | requestMore p hst =>
    exact hv.congr (l := []) rfl (List.append_nil _).symm rfl rfl
      (fun he => by cases hst.symm.trans he) fun he => by cases hst.symm.trans he
  | helloBad p rest t | authBad p rest t | requestBad p rest t =>
    exact hv.ended (l := [.entered .error t]) (Or.inr rfl) rfl rfl rfl
  | helloRefused t | authRefused t | requestRefusalSent t =>
    exact hv.ended (l := [.entered .done t]) (Or.inl rfl) rfl rfl rfl
  | helloDone us p rest t hst =>
    unfold View.Routed at hv ⊢
    rw [hst] at hv
    exact itinerary_ruled hv (o := .helloProcessed us (v.consumed rest) (helloMethod us p.data))
      (t := t) rfl rfl (by simp) rfl
  | authDone us' p rest t hst =>
    unfold View.Routed at hv ⊢
    rw [hst] at hv
    exact itinerary_ruled hv (o := .authProcessed us' (v.consumed rest) (authStatus us' p)) (t := t)
      rfl rfl (by simp [processAuth]) rfl
  | helloToAuth stale t hst hm =>
    unfold View.Routed at hv ⊢
    rw [hst, hm] at hv
    exact itinerary_entered hv rfl t
  | helloToRequest stale t hst h1 h2 =>
    unfold View.Routed at hv ⊢
    have hleads : methodLeads v.client.asHello.method = [.requestRead] := by
      unfold methodLeads
      rw [if_neg h1, if_neg h2]
    rw [hst, hleads] at hv
    exact itinerary_entered hv rfl t
  | authToRequest stale t hst hok =>
    unfold View.Routed at hv ⊢
    rw [hst, hok] at hv
    exact itinerary_entered hv rfl t
  | requestRefused p rest reply t hst =>
    exact hpass (l := [.requestProcessed rest, .replied reply, .entered .requestWrite t]) hst rfl
      (by simp) rfl rfl (by simp) (by simp)
  | requestUnsubmitted p rest t hst =>
    exact hpass (l := [.requestProcessed rest, .dnsSubmit none, .replied replyGeneralFailure,
      .entered .requestWrite t]) hst rfl (by simp) rfl rfl (by simp) (by simp)
  | requestSubmitted p rest k t hst =>
    exact hpass (l := [.requestProcessed rest, .dnsSubmit (some k), .entered .requestResolv t]) hst
      rfl (by simp) rfl rfl (by simp) (by simp)
  | requestLiteral p rest t hst =>
    exact hpass (l := [.requestProcessed rest, .entered .connecting t]) hst rfl (by simp) rfl rfl
      (by simp) (by simp)
  | dnsFailed t hst =>
    exact hpass (l := [.dnsConsumed [], .replied replyHostUnreachable, .entered .requestWrite t])
      hst rfl (by simp) rfl rfl (by simp) (by simp)
  | dnsFound t hst =>
    exact hpass (l := [.dnsConsumed v.found, .entered .connecting t]) hst rfl (by simp) rfl rfl
      (by simp) (by simp)
  | attemptFailed a rest e ha | attemptUnregistered a rest ha | attemptOpened a rest fd k ha =>
    exact hpass ha.1 ha.1 rfl rfl rfl (by simp) (by simp)
  | gaveUp t hst =>
    exact hpass (l := [.connectFailed, .replied v.orig.asConn.reply, .entered .requestWrite t]) hst
      rfl (by simp) rfl rfl (by simp) (by simp)
  | connected fd t hst =>
    exact hpass (l := [.completed none v.og.reported (some v.og.conn), .replied replySucceeded,
      .entered .requestWrite t]) hst rfl (by simp) rfl rfl (by simp) (by simp)
  | originFailed fd e hst =>
    exact hpass (l := [.completed (some e) v.og.reported (some v.og.conn)]) hst hst rfl rfl rfl
      (by simp) (by simp)
  | originGaveUp fd e t hst =>
    exact hpass (l := [.completed (some e) v.og.reported (some v.og.conn), .connectFailed,
      .replied (errnoToSocksReply e), .entered .requestWrite t]) hst rfl (by simp) rfl rfl (by simp)
      (by simp)
  | connectTimedOut t hst =>
    exact hpass (l := [.timedOut .connect t]) hst hst rfl rfl rfl (by simp) (by simp)
  | relayStarted t hst =>
    have hlog : ∀ r : Option LogRecord, stops (r.toList.map Obs.logged) = [] ∧
        rulings (r.toList.map Obs.logged) = [] := fun r => by cases r <;> exact ⟨rfl, rfl⟩
    refine hpass hst rfl (startRelay_grown v t) ?_ ?_ (by simp) (by simp)
    · rw [stops_append, (hlog _).1]
      rfl
    · rw [rulings_append, (hlog _).2]
      rfl
  | _ => exact absurd (Or.inl ‹v.st = some .copy›) hp

end Routed

/-! ## A session over the front of a stream -/

/-- What a session has come to over the front of the stream `bs`, `us` being the
store that rules on it. -/
structure View.Follows (us : Option Users) (bs : Bytes) (v : View) : Prop where
  rulings : Socks5d.rulings v.hist <+: (hear us bs).rulings
  stops : Socks5d.stops v.hist <+: itinerary (hear us bs).rulings
  user : Socks5d.rulings v.hist = (hear us bs).rulings → v.user = (hear us bs).user
  heard : (v.dest ≠ none ∨ ∃ r, .replied r ∈ v.hist) →
    Socks5d.rulings v.hist = (hear us bs).rulings
  refused : ∀ r, .replied r ∈ v.hist → v.dest = none →
    ∃ e after, (hear us bs).request = some (failed e after) ∧ e.reply = some r
  asked : ∀ d, v.dest = some d →
    ∃ m after, (hear us bs).request = some (done m after) ∧ d = (m.host.text, m.port) ∧
      ∀ g s left, .relayStart g s left ∈ v.hist → g + after.length = bs.length + left.length

section Follows
variable {us : Option Users} {bs : Bytes} {v : View}

theorem itinerary_of_initial {rs rs' : List Obs} (h : rs <+: rs') : itinerary rs <+: itinerary rs' := by
  obtain ⟨l, rfl⟩ := h
  exact ⟨_, (itinerary_append rs l).symm⟩

theorem View.Script.follows (hc : v.Script) (hp : v.Placed) (hr : v.Routed)
    (hus : ∀ o ∈ v.hist, o.ruledBy us) (hbs : v.cl.rx <+: bs) : v.Follows us bs := by
  obtain ⟨ns, got, user, hcourse, ht, -⟩ := hc.course
  have hns : Socks5d.rulings ns = Socks5d.rulings v.hist := by
    rw [← ht.verdicts, rulings_verdicts]
  have hcov : covered v.hist = got := by
    rw [← hcourse.covered, ← ht.verdicts, ← covered_rulings, ← rulings_verdicts, covered_rulings]
  obtain ⟨hbehind, hreq⟩ := hp
  rw [hcov] at hbehind hreq
  obtain ⟨rest, rfl⟩ := hbehind.trans hbs
  have hin : ∀ o ∈ ns, o.ruledBy us := fun o ho =>
    hus o (List.mem_of_mem_filter (ht.verdicts ▸ ho : o ∈ verdicts v.hist))
  obtain ⟨hpre, huser⟩ := hcourse.hear hin rest
  rw [hns] at hpre huser
  -- once let through, all that is heard is settled
  have hthrough : (∃ user, Cleared (Socks5d.rulings v.hist) got user) →
      (hear us (got ++ rest)).rulings = Socks5d.rulings v.hist ∧
        (hear us (got ++ rest)).request = some (decodeRequest rest) := by
    rintro ⟨who, hcl⟩
    rw [hcl.hear (fun o ho => hus o (List.mem_of_mem_filter ho)) rest]
    exact ⟨rfl, rfl⟩
  unfold View.Petition at hreq
  refine ⟨hpre, hr.within.trans (itinerary_of_initial hpre), fun he => ht.user.trans (huser he), ?_, ?_,
    ?_⟩
  · intro hsaid
    cases hd : v.dest with
    | none =>
      rw [hd] at hreq
      rcases hsaid with hsaid | ⟨r, hm⟩
      · exact absurd hd hsaid
      · exact (hthrough (hreq.2.2.2 r hm).1).1.symm
    | some d =>
      rw [hd] at hreq
      exact (hthrough hreq.1).1.symm
  · intro r hm hd
    rw [hd] at hreq
    obtain ⟨hcl, e, rest', after, hx, hf, he⟩ := hreq.2.2.2 r hm
    obtain ⟨more, hmore⟩ := hbs
    rw [hx, List.append_assoc] at hmore
    refine ⟨e, after ++ more, ?_, he⟩
    rw [(hthrough hcl).2, ← List.append_cancel_left hmore, decodeRequest_extend hf]
  · intro d hd
    rw [hd] at hreq
    obtain ⟨hcl, rsv, m, rest', hx, he, -, hstart⟩ := hreq
    obtain ⟨more, hmore⟩ := hbs
    rw [hx, List.append_assoc] at hmore
    have hrest : rest = m.encode rsv ++ (rest' ++ more) := by
      rw [← List.append_cancel_left hmore, List.append_assoc]
    refine ⟨m, rest' ++ more, ?_, he, fun g s left hm => ?_⟩
    · rw [(hthrough hcl).2, hrest, decodeRequest_done.mpr ⟨rsv, rfl⟩]
    · rw [hstart g s left hm, hrest]
      simp only [List.length_append]
      omega

/-- A session that waits for its client has told it all there is to tell. -/
structure View.Waits (us : Option Users) (v : View) : Prop where
  rulings : Socks5d.rulings v.hist = (hear us v.cl.rx).rulings
  stops : Socks5d.stops v.hist = itinerary (hear us v.cl.rx).rulings
  request : (hear us v.cl.rx).request = if v.st = some .requestRead then some more else none

theorem View.Script.waits (hc : v.Script) (hs : v.Sane) (hr : v.Routed) (hrest : v.Rest)
    {st : SocksState} (hst : v.st = some st) (hread : st.isRead = true)
    (hus : ∀ o ∈ v.hist, o.ruledBy us) : v.Waits us := by
  have hstop : stops v.hist = itinerary (rulings v.hist) := by
    unfold View.Routed at hr
    rw [hst] at hr
    cases st <;> first | exact hr | cases hread
  have hrulings : ∀ {ns user}, v.Told ns user → rulings ns = rulings v.hist := fun ht => by
    rw [← ht.verdicts, rulings_verdicts]
  have hin : ∀ {ns user}, v.Told ns user → ∀ o ∈ ns, o.ruledBy us := fun ht o ho =>
    hus o (List.mem_of_mem_filter (ht.verdicts ▸ ho : o ∈ verdicts v.hist))
  cases st with
  | helloRead =>
    simp only [Script, Sane, Rest, hst] at hc hs hrest
    obtain ⟨ht, -, seen, hseen, hrun⟩ := hc
    obtain ⟨-, -, -, q, hq, hopen⟩ := hs
    have hparser : v.client.asHello.parser = q.parser := by rw [hq]; rfl
    rw [hrest, List.append_nil] at hseen
    rw [hparser] at hrun
    have hhear : hear us v.cl.rx = ⟨[], [], none⟩ := hseen ▸ hear_hello hrun hopen
    have hsaid : rulings v.hist = (hear us v.cl.rx).rulings := by
      rw [← hrulings ht, hhear]
      rfl
    exact ⟨hsaid, hsaid ▸ hstop, by rw [hhear, if_neg (by simp [hst])]; rfl⟩
  | authRead =>
    simp only [Script, Sane, Rest, hst] at hc hs hrest
    obtain ⟨us', hello, hch, ht, -, stale, seen, hseen, hrun⟩ := hc
    obtain ⟨-, -, -, q, hq, hopen⟩ := hs
    have hparser : v.client.asAuth.parser = q.parser := by rw [hq]; rfl
    rw [hrest, List.append_nil] at hseen
    rw [hparser] at hrun
    obtain rfl := hin ht _ (List.mem_singleton_self _)
    have hhear : hear us' v.cl.rx = ⟨[.helloProcessed us' hello helloUsernamePassword], [], none⟩ := by
      rw [hseen, hear_asked hch]
      exact hearAuth_more hrun hopen
    have hsaid : rulings v.hist = (hear us' v.cl.rx).rulings := by
      rw [← hrulings ht, hhear]
      rfl
    exact ⟨hsaid, hsaid ▸ hstop, by rw [hhear, if_neg (by simp [hst])]; rfl⟩
  | requestRead =>
    simp only [Script, Sane, Rest, hst] at hc hs hrest
    obtain ⟨ns, got, user, hcl, ht, -, stale, seen, hseen, hrun⟩ := hc
    obtain ⟨-, -, -, q, hq, hopen, -⟩ := hs
    have hparser : v.client.asRequest.parser = q.parser := by rw [hq]; rfl
    rw [hrest, List.append_nil] at hseen
    rw [hparser] at hrun
    have hhear : hear us v.cl.rx = ⟨ns, user, some seen⟩ := hseen ▸ hcl.hear (hin ht) seen
    have hsaid : rulings v.hist = (hear us v.cl.rx).rulings := by
      rw [← hrulings ht, hhear, hcl.rulings]
    refine ⟨hsaid, hsaid ▸ hstop, ?_⟩
    rw [hhear, if_pos hst]
    exact congrArg some (decodeRequest_more hrun hopen)
  | _ => cases hread

theorem Final.silent {fair : View → Limit → Int → Prop} {l : List Obs} (h : Final fair v l) :
    rulings l = [] ∧ stops l = [] ∧ (∀ r, .replied r ∉ l) ∧
      ∀ g s left, .relayStart g s left ∉ l := by
  have hone : ∀ o ∈ l, o.rules = false ∧ o.stop = none ∧ (∀ r, o ≠ .replied r) ∧
      ∀ g s left, o ≠ .relayStart g s left := fun o ho => by
    have hc := h.closing o ho
    cases o <;> first | (cases hc; done) | simp
  exact ⟨List.filter_eq_nil_iff.mpr fun o ho => by rw [(hone o ho).1]; exact Bool.false_ne_true,
    List.filterMap_eq_nil_iff.mpr fun o ho => (hone o ho).2.1,
    fun r hm => (hone _ hm).2.2.1 r rfl, fun g s left hm => (hone _ hm).2.2.2 g s left rfl⟩

/-- What a session does at its end changes nothing of this. -/
theorem View.Follows.filed (h : v.Follows us bs) {fair : View → Limit → Int → Prop} {l : List Obs}
    (hf : Final fair v l) : (v.filed l).Follows us bs := by
  obtain ⟨hl, hs, hr, hg⟩ := hf.silent
  have hrul : Socks5d.rulings (v.filed l).hist = Socks5d.rulings v.hist := by
    show Socks5d.rulings (v.hist ++ l) = _
    rw [rulings_append, hl, List.append_nil]
  have hstops : Socks5d.stops (v.filed l).hist = Socks5d.stops v.hist := by
    show Socks5d.stops (v.hist ++ l) = _
    rw [stops_append, hs, List.append_nil]
  have hmem : ∀ {o}, o ∉ l → o ∈ (v.filed l).hist → o ∈ v.hist := fun hno hm =>
    (List.mem_append.mp hm).resolve_right hno
  refine ⟨hrul ▸ h.rulings, hstops ▸ h.stops, hrul ▸ h.user, ?_, ?_, ?_⟩
  · rw [hrul]
    rintro (hd | ⟨r, hm⟩)
    · exact h.heard (Or.inl hd)
    · exact h.heard (Or.inr ⟨r, hmem (hr r) hm⟩)
  · exact fun r hm hd => h.refused r (hmem (hr r) hm) hd
  · intro d hd
    obtain ⟨m, after, hreq, he, hstart⟩ := h.asked d hd
    exact ⟨m, after, hreq, he, fun g s left hm => hstart g s left (hmem (hg g s left) hm)⟩

end Follows

theorem Reached.follows {strict : Prop} {v : View} (h : Reached strict v) : v.Placed ∧ v.Routed := by
  have hall : v.Script ∧ v.Placed ∧ v.Routed :=
    h.induct (P := fun v => v.Script ∧ v.Placed ∧ v.Routed)
      (fun fd t => ⟨fresh_script fd t, ⟨List.nil_prefix, by simp [View.Petition, View.fresh, starts]⟩,
        rfl, rfl⟩)
      fun hs ⟨hc, hp, hr⟩ hm => ⟨hm.script hs hc, hm.placed hs hc hp, hm.routed hr⟩
  exact hall.2

/-- In every run, a session over the front of a stream follows what the store
makes of the stream as a whole, in whatever pieces the stream came and however
its answers went out; and when it waits for its client, nothing it has received
is left unanswered. -/
theorem negotiation_follows (b : Boot) (is : List Input) :
    (∀ v us bs, (b.start.run is).Session v → (∀ o ∈ v.hist, o.ruledBy us) → v.cl.rx <+: bs →
      v.Follows us bs) ∧
    ∀ p us st, (b.start.run is).Serves p → ((b.start.run is).ctx p).view.st = some st →
      st.isRead = true → (∀ o ∈ ((b.start.run is).ctx p).view.hist, o.ruledBy us) →
      ((b.start.run is).ctx p).view.Waits us := by
  obtain ⟨ρ, h⟩ := b.orderly is
  constructor
  · intro v us bs hs
    refine h.every hs (P := fun v => (∀ o ∈ v.hist, o.ruledBy us) → v.cl.rx <+: bs → v.Follows us bs)
      (fun hr hus hbs => hr.script.follows hr.follows.1 hr.follows.2 hus hbs) ?_
    intro u l hr hf hu hus hbs
    exact (hu (fun o ho => hus o (List.mem_append_left _ ho)) hbs).filed hf
  · intro p us st hp hst hread hus
    have ha := h.inv.serves_iff.mp hp
    have hsound := h.inv.sound ha
    exact hsound.reached.script.waits hsound.reached.sane hsound.reached.follows.2
      (h.calm p ha).rest.rest hst hread hus

/-- A client that has sent the first byte of its HELLO. -/
def Input.hesitation : List Input := Input.round 1 0 [] ++ Input.round 2 2 [5]

theorem hesitation_serves : (Boot.open.start.run Input.hesitation).Serves 0 :=
  ⟨2, ⟨opRead, .socks5, 0⟩, by decide +kernel, rfl, rfl⟩

theorem negotiation_follows_tunnel :
    let us := Boot.open.start.g.users
    let v := ((Boot.open.start.run Input.tunnel).ctx 0).view
    v.Follows us (v.cl.rx ++ [7]) ∧
      ((Boot.open.start.run Input.hesitation).ctx 0).view.Waits us := by
  intro us v
  constructor
  · exact (negotiation_follows Boot.open Input.tunnel).1 v us _ (.live tunnel_serves)
      (by decide +kernel) (List.prefix_append ..)
  · exact (negotiation_follows Boot.open Input.hesitation).2 0 us .helloRead hesitation_serves
      (by decide +kernel) rfl (by decide +kernel)

end Socks5d
