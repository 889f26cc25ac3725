import Socks5d.Sessions

/-! # The relay

A relay starts once, from a session that has sent its reply, and from then on
only the moves of the relay are left. What is read at one end is delivered at
the other, in order. -/
namespace Socks5d
open Ctx View

/-! ## The moves of a relay -/

/-- One thing that happens to a relay, or to its sockets after it. -/
inductive RelayMove : View → View → Prop
  | received {v : View} (d : Dir) (bs : Bytes) (t : Int) : v.st = some .copy →
      (v.copyOf d).eof = false → bs ≠ [] →
      RelayMove v { ((v.setBuf d (v.bufOf d ++ bs)).setSource d
        { v.source d with rx := (v.source d).rx ++ bs }).note
          (.relayRecv d (some bs.length) t) with lastActivity := t }
  | eof {v : View} (d : Dir) (t : Int) : v.st = some .copy → (v.copyOf d).eof = false →
      RelayMove v (((v.setCopy d { v.copyOf d with eof := true }).setSource d
        { v.source d with lost := true }).note (.relayRecv d (some 0) t))
  | unread {v : View} (d : Dir) (lost : Bool) (t : Int) : v.st = some .copy →
      (v.copyOf d).eof = false →
      RelayMove v ((v.setSource d { v.source d with lost := lost }).note (.relayRecv d none t))
  | sent {v : View} (d : Dir) (n : Nat) (flawless : Bool) : v.st = some .copy →
      v.bufOf d ≠ [] → n ≤ (v.bufOf d).length →
      RelayMove v ((((v.setBuf d ((v.bufOf d).drop n)).setCopy d
        { v.copyOf d with transferred := (v.copyOf d).transferred + n.toUInt64 }).setSink d
        { v.sink d with tx := (v.sink d).tx ++ (v.bufOf d).take n, flawless := flawless }).note
          (.relaySend d (some n)))
  | unsent {v : View} (d : Dir) (lost flawless : Bool) : v.st = some .copy → v.bufOf d ≠ [] →
      RelayMove v ((v.setSink d { v.sink d with lost := lost, flawless := flawless }).note
        (.relaySend d none))
  | shut {v : View} (d : Dir) (shut : Bool) : v.st = some .copy → (v.copyOf d).eof = true →
      (v.copyOf d).writeClosed = false → v.bufOf d = [] →
      RelayMove v (((v.setCopy d { v.copyOf d with writeClosed := true }).setSink d
        { v.sink d with shutWr := shut }).note (.relayShut d true))
  | unshut {v : View} (d : Dir) (t : Int) : v.st = some .copy → (v.copyOf d).eof = true →
      (v.copyOf d).writeClosed = false → v.bufOf d = [] →
      RelayMove v ((v.note (.relayShut d false)).enter .error t)
  | synced {v : View} (r₁ r₂ : Bool) : v.st = some .copy → RelayMove v (v.synced r₁ r₂)
  | finished {v : View} (t : Int) : v.st = some .copy → (∀ d, (v.copyOf d).writeClosed = true) →
      RelayMove v (v.enter .done t)
  | broken {v : View} (d : Dir) (t : Int) : v.st = some .copy → (v.copyOf d).writeClosed = false →
      RelayMove v (v.enter .error t)
  | network {v : View} (cl og : Sock) : cl.rx = v.cl.rx ∧ cl.tx = v.cl.tx →
      og.rx = v.og.rx ∧ og.tx = v.og.tx → RelayMove v { v with cl := cl, og := og }

/-- A relay, or what one came to. -/
def View.Tunnel (v : View) : Prop := v.st = some .copy ∨ v.st = some .done ∨ v.st = some .error

theorem Move.relay {strict : Prop} {v v' : View} (h : Move strict v v') (hv : v.Tunnel) :
    RelayMove v v' := by
  have hno : ∀ {st : SocksState}, v.st = some st → st ≠ .copy → st ≠ .done → st ≠ .error →
      RelayMove v v' := by
    intro st hst h1 h2 h3
    rcases hv with hv | hv | hv <;> cases hst.symm.trans hv <;> contradiction
  cases h with
  | relayReceived d bs t hst he hne => exact .received d bs t hst he hne
  | relayEof d t hst he => exact .eof d t hst he
  | relayUnread d lost t hst he => exact .unread d lost t hst he
  | relaySent d n flawless hst hne hn => exact .sent d n flawless hst hne hn
  | relayUnsent d lost flawless hst hne => exact .unsent d lost flawless hst hne
  | relayShut d shut hst he hw hb => exact .shut d shut hst he hw hb
  | relayUnshut d t hst he hw hb => exact .unshut d t hst he hw hb
  | relaySynced r₁ r₂ hst => exact .synced r₁ r₂ hst
  | relayDone t hst h1 h2 => exact .finished t hst fun d => by cases d <;> assumption
  | relayBroken d t hst hd => exact .broken d t hst hd
  | reported a b => exact .network _ _ ⟨rfl, rfl⟩ ⟨rfl, rfl⟩
  | settled conn err => exact .network _ _ ⟨rfl, rfl⟩ ⟨rfl, rfl⟩
  | start t hst => rcases hv with hv | hv | hv <;> cases hst.symm.trans hv
  | received bs hst hr | recvLost t hst hr =>
    refine hno hst ?_ ?_ ?_ <;> rintro rfl <;> cases hr
  | sent n hst hw | sendLost t hst hw =>
    refine hno hst ?_ ?_ ?_ <;> rintro rfl <;> cases hw
  | attemptFailed a rest e ha | attemptUnregistered a rest ha | attemptOpened a rest fd k ha =>
    exact hno ha.1 (by decide) (by decide) (by decide)
  | _ => exact hno ‹v.st = some _› (by decide) (by decide) (by decide)

theorem RelayMove.tunnel {v v' : View} (h : RelayMove v v') (hv : v.Tunnel) : v'.Tunnel := by
  cases h with
  | received d | eof d | unread d | sent d | unsent d | shut d => cases d <;> exact hv
  | unshut | broken => exact Or.inr (Or.inr rfl)
  | finished => exact Or.inr (Or.inl rfl)
  | synced | network => exact hv

/-! ## Before the relay -/

/-- What only a relay adds to a history. -/
@[simp] def Obs.relays : Obs → Bool
  | .entered .copy _ | .relayStart _ _ _ | .relayRecv _ _ _ | .relaySend _ _ | .relayShut _ _ => true
  | _ => false

/-- The bytes `request_process` found behind the request. -/
@[simp] def Obs.left : Obs → Option Bytes
  | .requestProcessed l => some l
  | _ => none

def lefts (h : List Obs) : List Bytes := h.filterMap Obs.left

@[simp] theorem lefts_append (h l : List Obs) : lefts (h ++ l) = lefts h ++ lefts l := by
  simp [lefts]

/-- What is known of the request in each state before the relay. -/
def View.Staged (v : View) : Prop :=
  match v.st with
  | some .requestResolv | some .connecting => lefts v.hist = [v.rb] ∧ v.dest.isSome = true
  | some .requestWrite => lefts v.hist = [v.rb] ∧
      (v.client.asRequest.reply = replySucceeded → v.dest.isSome = true)
  | some .copy => False
  | some .done | some .error => True
  | _ => lefts v.hist = [] ∧ v.dest = none

/-- No relay has started; nothing has gone over the origin's connection. -/
structure View.Before (v : View) : Prop where
  plain : ∀ o ∈ v.hist, o.relays = false
  unlogged : records v.hist = []
  unopened : v.opened = false
  origin : v.og.rx = [] ∧ v.og.tx = []
  staged : v.Staged

theorem View.Before.grow {v v' : View} (h : v.Before) {l : List Obs} (hh : v'.hist = v.hist ++ l)
    (hl : ∀ o ∈ l, o.relays = false) (hr : records l = []) (ho : v'.opened = v.opened)
    (hor : v'.og.rx = [] ∧ v'.og.tx = []) (hs : v'.Staged) : v'.Before where
  plain o hm := by
    rw [hh, List.mem_append] at hm
    exact hm.elim (h.plain o) (hl o)
  unlogged := by rw [hh, records_append, h.unlogged, hr]; rfl
  unopened := ho.trans h.unopened
  origin := hor
  staged := hs

theorem View.Staged.congr {v v' : View} (h : v.Staged) (hst : v'.st = v.st)
    (hh : lefts v'.hist = lefts v.hist) (hb : v'.rb = v.rb ∨ v.st = some .helloRead ∨
      v.st = some .authRead ∨ v.st = some .requestRead) (hd : v'.dest = v.dest)
    (hc : v'.client.asRequest.reply = v.client.asRequest.reply ∨ v.st ≠ some .requestWrite) :
    v'.Staged := by
  unfold View.Staged at h ⊢
  rw [hst, hh, hd]
  split at h <;> simp_all

theorem fresh_before (fd : Fd) (t : Int) : (View.fresh fd t).Before :=
  ⟨fun _ ho => (by cases ho), rfl, rfl, ⟨rfl, rfl⟩, rfl, rfl⟩

/-- The request is stored, and its bytes are counted, when it has been parsed. -/
theorem staged_asked {v : View} (h : v.Before) {st : SocksState} (hst : v.st = some .requestRead)
    {v' : View} {p : RequestParser} {rest : Bytes} {l : List Obs}
    (hst' : v'.st = some st) (hcase : st = .requestResolv ∨ st = .connecting ∨
      st = .requestWrite ∧ v'.client.asRequest.reply ≠ replySucceeded)
    (hh : v'.hist = v.hist ++ .requestProcessed rest :: l) (hl : lefts l = []) (hb : v'.rb = rest)
    (hd : st = .requestWrite ∨ v'.dest = (v.storeDest p.request).dest ∧
      (storedDestination p.request).isSome = true) : v'.Staged := by
  have h0 : lefts v.hist = [] := by
    have hs := h.staged
    unfold View.Staged at hs
    rw [hst] at hs
    exact hs.1
  have hlefts : lefts v'.hist = [v'.rb] := by
    rw [hh, lefts_append, h0, hb]
    show rest :: lefts l = [rest]
    rw [hl]
  have hdest : st ≠ .requestWrite → v'.dest.isSome = true := by
    intro hne
    obtain ⟨h1, h2⟩ := hd.resolve_left hne
    rw [h1]
    exact (Option.isSome_map ..).trans h2
  unfold View.Staged
  rw [hst']
  rcases hcase with rfl | rfl | ⟨rfl, hr⟩
  · exact ⟨hlefts, hdest (by decide)⟩
  · exact ⟨hlefts, hdest (by decide)⟩
  · exact ⟨hlefts, fun he => absurd he hr⟩

/-- A finished parse of a request has a destination. -/
theorem stored_of_done {v : View} (hs : v.Sane) (hst : v.st = some .requestRead)
    {p : RequestParser} {rest : Bytes}
    (hrun : requestRun v.client.asRequest.parser v.rb = ((p, false), rest)) (hp : p.state = .done) :
    (storedDestination p.request).isSome = true := by
  simp only [Sane, hst] at hs
  obtain ⟨-, -, -, r, hr, hstop, hknown⟩ := hs
  have hc : v.client.asRequest.parser = r.parser := by rw [hr]; rfl
  rw [hc] at hrun
  have hk : AtypKnown p := by
    rcases requestRun_cases hstop hknown v.rb with ⟨q, he, -, hk⟩ | ⟨q, r', he⟩ | ⟨q, r', he, hq⟩ |
      ⟨q, r', he, -, hk⟩ <;> cases hrun.symm.trans he
    · exact hk
    · rcases hq with hq | hq <;> rw [hp] at hq <;> cases hq
    · exact hk
  unfold storedDestination
  rcases hk (Or.inr (Or.inr hp)) with h | h | h <;> rw [h] <;> rfl

/-- A move before the relay stays before it, or starts it. -/
theorem Move.before {strict : Prop} {v v' : View} (h : Move strict v v') (hs : v.Sane)
    (hb : v.Before) : v'.Before ∨ v.st = some .requestWrite ∧
      v.client.asRequest.reply = replySucceeded ∧ ∃ t, v' = v.drained.startRelay t := by
  have hst := hb.staged
  -- the cases that change no stage
  have hsame : ∀ {l : List Obs}, v'.hist = v.hist ++ l → (∀ o ∈ l, o.relays = false) →
      records l = [] → lefts l = [] → v'.opened = v.opened → v'.og.rx = v.og.rx ∧
      v'.og.tx = v.og.tx ∨ v'.og.rx = [] ∧ v'.og.tx = [] → v'.st = v.st → (v'.rb = v.rb ∨
      v.st = some .helloRead ∨ v.st = some .authRead ∨ v.st = some .requestRead) →
      v'.dest = v.dest → (v'.client.asRequest.reply = v.client.asRequest.reply ∨
      v.st ≠ some .requestWrite) → v'.Before := by
    intro l hh hl hr hle ho hor hst' hrb hd hc
    refine hb.grow hh hl hr ho ?_ (hst.congr hst' (by rw [hh, lefts_append, hle, List.append_nil])
      hrb hd hc)
    rcases hor with ⟨h1, h2⟩ | h2
    · rw [h1, h2]; exact hb.origin
    · exact h2
  -- the negotiation before the request
  have hearly : ∀ {l : List Obs} {a b : Option SocksState}, v.st = a → v'.st = b → v'.hist = v.hist ++ l →
      (∀ o ∈ l, o.relays = false) → records l = [] → lefts l = [] → v'.opened = v.opened →
      v'.og = v.og → v'.dest = v.dest → a = none ∨ a = some .helloRead ∨ a = some .helloWrite ∨
        a = some .authRead ∨ a = some .authWrite → b = some .helloRead ∨ b = some .helloWrite ∨
        b = some .authRead ∨ b = some .authWrite ∨ b = some .requestRead → v'.Before := by
    intro l a b ha hb' hh hl hr hle ho hor hd hea heb
    refine hb.grow hh hl hr ho (hor ▸ hb.origin) ?_
    have hv : lefts v.hist = [] ∧ v.dest = none := by
      unfold View.Staged at hst
      rw [ha] at hst
      rcases hea with rfl | rfl | rfl | rfl | rfl <;> exact hst
    unfold View.Staged
    rw [hb', hh, lefts_append, hle, hd, hv.1, hv.2]
    rcases heb with rfl | rfl | rfl | rfl | rfl <;> exact ⟨rfl, rfl⟩
  -- the end
  have hend : ∀ {l : List Obs} {st : SocksState}, st = .done ∨ st = .error → v'.st = some st →
      v'.hist = v.hist ++ l → (∀ o ∈ l, o.relays = false) → records l = [] →
      v'.opened = v.opened → v'.og = v.og → v'.Before := by
    intro l st he hst' hh hl hr ho hor
    refine hb.grow hh hl hr ho (hor ▸ hb.origin) ?_
    unfold View.Staged
    rw [hst']
    rcases he with rfl | rfl <;> trivial
  -- waiting for the origin
  have hlate : ∀ {l : List Obs} {a b : SocksState}, v.st = some a → v'.st = some b →
      v'.hist = v.hist ++ l → (∀ o ∈ l, o.relays = false) → records l = [] → lefts l = [] →
      v'.opened = v.opened → v'.og.rx = v.og.rx ∧ v'.og.tx = v.og.tx ∨ v'.og.rx = [] ∧ v'.og.tx = [] →
      v'.dest = v.dest → v'.rb = v.rb → a = .requestResolv ∨ a = .connecting →
      b = .connecting ∨ b = .requestWrite → v'.Before := by
    intro l a b ha hb' hh hl hr hle ho hor hd hrb hea heb
    refine hb.grow hh hl hr ho ?_ ?_
    · rcases hor with ⟨h1, h2⟩ | h2
      · rw [h1, h2]; exact hb.origin
      · exact h2
    · have hv : lefts v.hist = [v.rb] ∧ v.dest.isSome = true := by
        unfold View.Staged at hst
        rw [ha] at hst
        rcases hea with rfl | rfl <;> exact hst
      unfold View.Staged
      rw [hb', hh, lefts_append, hle, List.append_nil, hd, hrb]
      rcases heb with rfl | rfl
      · exact hv
      · exact ⟨hv.1, fun _ => hv.2⟩
  have hcopy : v.st = some .copy → False := by
    intro hc
    unfold View.Staged at hst
    rw [hc] at hst
    exact hst
  have hread : ∀ {st : SocksState}, v.st = some st → st.isRead = true →
      v.st = some .helloRead ∨ v.st = some .authRead ∨ v.st = some .requestRead := by
    intro st h0 hr
    cases st <;> first | (cases hr; done) | simp [h0]
  cases h with
  | start t h0 =>
    exact Or.inl (hearly (l := [.entered .helloRead t]) h0 rfl rfl (by simp) rfl rfl rfl rfl rfl
      (by simp) (by simp))
  | received bs h0 hr =>
    exact Or.inl (hsame (l := []) (by simp) (by simp) rfl rfl rfl (by simp) rfl
      (Or.inr (hread h0 hr)) rfl (by simp))
  | recvLost t h0 | sendLost t h0 =>
    exact Or.inl (hend (l := [.entered .error t]) (by simp) rfl rfl (by simp) rfl rfl rfl)
  | sent n h0 =>
    exact Or.inl (hsame (l := []) (by simp) (by simp) rfl rfl rfl (by simp) rfl (by simp) rfl (by simp))
  | helloMore p h0 | authMore p h0 | requestMore p h0 =>
    exact Or.inl (hsame (l := []) (by simp) (by simp) rfl rfl rfl (by simp [readHello, readAuth, readRequest]) rfl (by simp [h0]) rfl (by simp [h0]))
  | helloBad p rest t h0 | authBad p rest t h0 | requestBad p rest t h0 =>
    exact Or.inl (hend (l := [.entered .error t]) (by simp) rfl rfl (by simp) rfl rfl rfl)
  | helloDone us p rest t h0 | authDone us p rest t h0 =>
    exact Or.inl (hearly h0 rfl (List.append_assoc ..) (by simp) rfl rfl rfl rfl rfl (by simp)
      (by simp))
  | helloRefused t h0 | authRefused t h0 | requestRefusalSent t h0 =>
    exact Or.inl (hend (l := [.entered .done t]) (by simp) rfl rfl (by simp) rfl rfl rfl)
  | helloToAuth stale t h0 =>
    exact Or.inl (hearly (l := [.entered .authRead t]) h0 rfl rfl (by simp) rfl rfl rfl rfl rfl
      (by simp) (by simp))
  | helloToRequest stale t h0 | authToRequest stale t h0 =>
    exact Or.inl (hearly (l := [.entered .requestRead t]) h0 rfl rfl (by simp) rfl rfl rfl rfl rfl
      (by simp) (by simp))
  | requestRefused p rest reply t h0 hrun hp =>
    have hne : reply ≠ replySucceeded := by
      rcases hp with ⟨-, rfl⟩ | ⟨-, rfl⟩ <;> decide
    have hh : ((v.processRequest p rest).answer reply t).hist =
        v.hist ++ .requestProcessed rest :: [.replied reply, .entered .requestWrite t] := by simp
    exact Or.inl (hb.grow hh (by simp) rfl rfl hb.origin
      (staged_asked hb h0 rfl (Or.inr (Or.inr ⟨rfl, hne⟩)) hh rfl rfl (Or.inl rfl) (p := p)))
  | requestUnsubmitted p rest t h0 hrun hp =>
    have hh : ((((v.processRequest p rest).storeDest p.request).note (.dnsSubmit none)).answer
        replyGeneralFailure t).hist = v.hist ++ .requestProcessed rest ::
          [.dnsSubmit none, .replied replyGeneralFailure, .entered .requestWrite t] := by simp
    exact Or.inl (hb.grow hh (by simp) rfl rfl hb.origin
      (staged_asked hb h0 rfl (Or.inr (Or.inr ⟨rfl, replyGeneralFailure_ne⟩)) hh rfl rfl
        (Or.inl rfl) (p := p)))
  | requestSubmitted p rest k t h0 hrun hp =>
    have hh : ({ ((v.processRequest p rest).storeDest p.request).note (.dnsSubmit (some k)) with
        ci := opNoop }.enter .requestResolv t).hist = v.hist ++ .requestProcessed rest ::
          [.dnsSubmit (some k), .entered .requestResolv t] := by simp
    exact Or.inl (hb.grow hh (by simp) rfl rfl hb.origin
      (staged_asked hb h0 rfl (Or.inl rfl) hh rfl rfl
        (Or.inr ⟨rfl, stored_of_done hs h0 hrun hp⟩)))
  | requestLiteral p rest t h0 hrun hp =>
    have hh : ({ (v.processRequest p rest).storeDest p.request with ci := opNoop }.toConnecting
        [] t).hist = v.hist ++ .requestProcessed rest :: [.entered .connecting t] := by simp
    exact Or.inl (hb.grow hh (by simp) rfl rfl hb.origin
      (staged_asked hb h0 rfl (Or.inr (Or.inl rfl)) hh rfl rfl
        (Or.inr ⟨rfl, stored_of_done hs h0 hrun hp⟩)))
  | resolved found h0 =>
    exact Or.inl (hsame (l := []) (by simp) (by simp) rfl rfl rfl (by simp) rfl (by simp) rfl (by simp))
  | dnsFailed t h0 =>
    exact Or.inl (hlate (l := [.dnsConsumed [], .replied replyHostUnreachable, .entered .requestWrite t]) h0 rfl
      (by simp) (by simp) rfl rfl rfl (Or.inl ⟨rfl, rfl⟩) rfl rfl (by simp) (by simp))
  | dnsFound t h0 =>
    exact Or.inl (hlate (l := [.dnsConsumed v.found, .entered .connecting t]) h0 rfl
      (by simp) (by simp) rfl rfl rfl (Or.inl ⟨rfl, rfl⟩) rfl rfl (by simp) (by simp))
  | attemptFailed a rest e ha =>
    exact Or.inl (hsame (l := [_]) rfl (by simp) rfl rfl rfl (Or.inl ⟨rfl, rfl⟩) rfl (by simp [setReply, View.note]) rfl
      (by simp [ha.1]))
  | attemptUnregistered a rest ha =>
    exact Or.inl (hsame (l := [_]) rfl (by simp) rfl rfl rfl (Or.inl ⟨rfl, rfl⟩) rfl (by simp [View.note]) rfl
      (by simp [ha.1]))
  | attemptOpened a rest fd k ha hk =>
    refine Or.inl (hsame (l := [_]) rfl (by simp) rfl rfl rfl (Or.inr ?_) rfl (by simp [View.note]) rfl
      (by simp [ha.1]))
    rcases hk with rfl | rfl <;> exact ⟨rfl, rfl⟩
  | exhausted a e h0 =>
    exact Or.inl (hsame (l := []) (by simp) (by simp) rfl rfl rfl (by simp) rfl (by simp) rfl (by simp))
  | gaveUp t h0 =>
    exact Or.inl (hlate (l := [.connectFailed, .replied v.orig.asConn.reply, .entered .requestWrite t])
      h0 rfl (by simp) (by simp) rfl rfl rfl (Or.inl ⟨rfl, rfl⟩) rfl rfl (by simp) (by simp))
  | connected fd t h0 =>
    exact Or.inl (hlate (l := [.completed none v.og.reported (some v.og.conn),
      .replied replySucceeded, .entered .requestWrite t]) h0 rfl
      (by simp) (by simp) rfl rfl rfl (Or.inl ⟨rfl, rfl⟩) rfl rfl (by simp) (by simp))
  | originFailed fd e h0 =>
    exact Or.inl (hsame (l := [.completed (some e) _ _]) rfl (by simp) rfl rfl rfl (Or.inr ⟨rfl, rfl⟩) rfl (by simp [noOrigin, setReply, sawOrigin, View.note]) rfl
      (by simp [h0]))
  | originGaveUp fd e t h0 =>
    exact Or.inl (hlate (l := [.completed (some e) v.og.reported (some v.og.conn),
      .connectFailed, .replied (errnoToSocksReply e), .entered .requestWrite t]) h0 rfl
      (by simp) (by simp) rfl rfl rfl (Or.inr ⟨rfl, rfl⟩) rfl rfl (by simp) (by simp))
  | connectTimedOut t h0 =>
    exact Or.inl (hsame (l := [_]) rfl (by simp) rfl rfl rfl (Or.inr ⟨rfl, rfl⟩) rfl (by simp [noOrigin, View.note]) rfl
      (by simp [h0]))
  | relayStarted t h0 hr => exact Or.inr ⟨h0, hr, t, rfl⟩
  | reported a b | settled conn err =>
    exact Or.inl (hsame (l := []) (by simp) (by simp) rfl rfl rfl (by simp) rfl (by simp) rfl (by simp))
  | _ => exact (hcopy ‹_›).elim

/-- A relay started from `u`. -/
structure Opens (strict : Prop) (u : View) : Prop where
  reached : Reached strict u
  before : u.Before
  st : u.st = some .requestWrite
  granted : u.client.asRequest.reply = replySucceeded

/-- A session is before its relay, or what holds of a relay at its start and is
kept by the moves of a relay holds of it. -/
theorem Reached.relay {strict : Prop} {P : View → Int → View → Prop} {v : View}
    (h0 : ∀ u t, Opens strict u → P u t (u.drained.startRelay t))
    (hm : ∀ {u t v v'}, Opens strict u → v.Sane → P u t v → RelayMove v v' → P u t v')
    (h : Reached strict v) : v.Before ∨ ∃ u t, Opens strict u ∧ P u t v := by
  obtain ⟨fd, t, hr⟩ := h
  have hboth : v.Before ∨ v.Tunnel ∧ ∃ u t, Opens strict u ∧ P u t v := by
    induction hr with
    | refl => exact Or.inl (fresh_before fd t)
    | @tail b c hab hbc ih =>
      have hb : Reached strict b := ⟨fd, t, hab⟩
      rcases ih with ih | ⟨ht, u, t', hu, hp⟩
      · rcases hbc.before hb.sane ih with h1 | ⟨hst, hrep, t', rfl⟩
        · exact Or.inl h1
        · have hu : Opens strict b := ⟨hb, ih, hst, hrep⟩
          exact Or.inr ⟨Or.inl rfl, b, t', hu, h0 b t' hu⟩
      · have hmove := hbc.relay ht
        exact Or.inr ⟨hmove.tunnel ht, u, t', hu, hm hu hb.sane hp hmove⟩
  exact hboth.imp_right And.right

section Opens
variable {strict : Prop} {u : View} (h : Opens strict u)

include h in
theorem Opens.staged : lefts u.hist = [u.rb] ∧ u.dest.isSome = true := by
  have hs := h.before.staged
  unfold View.Staged at hs
  rw [h.st] at hs
  exact ⟨hs.1, hs.2 h.granted⟩

end Opens

/-! ## The two streams -/

/-- What has arrived at the other end of a direction since the relay started. -/
def View.delivered (sent : Nat) (v : View) : Dir → Bytes
  | .c2o => v.og.tx
  | .o2c => v.cl.tx.drop sent

/-- What has been read for a direction, with what was left of the negotiation. -/
def View.taken (got : Nat) (left : Bytes) (v : View) : Dir → Bytes
  | .c2o => left ++ v.cl.rx.drop got
  | .o2c => v.og.rx

/-- Nothing is lost, doubled or put in another order. -/
structure View.Flow (got sent : Nat) (left : Bytes) (v : View) : Prop where
  gotLe : got ≤ v.cl.rx.length
  sentLe : sent ≤ v.cl.tx.length
  conserved : ∀ d, v.delivered sent d ++ v.bufOf d = v.taken got left d

theorem View.Flow.congr {v v' : View} {got sent : Nat} {left : Bytes} (h : v.Flow got sent left)
    (hcl : v'.cl.rx = v.cl.rx ∧ v'.cl.tx = v.cl.tx) (hog : v'.og.rx = v.og.rx ∧ v'.og.tx = v.og.tx)
    (hb : ∀ d, v'.bufOf d = v.bufOf d) : v'.Flow got sent left := by
  refine ⟨hcl.1 ▸ h.gotLe, hcl.2 ▸ h.sentLe, fun d => ?_⟩
  have hc := h.conserved d
  rw [hb]
  cases d with
  | c2o => simp only [View.delivered, View.taken, hcl.1, hog.2] at hc ⊢; exact hc
  | o2c => simp only [View.delivered, View.taken, hcl.2, hog.1] at hc ⊢; exact hc

theorem RelayMove.flow {v v' : View} {got sent : Nat} {left : Bytes} (h : RelayMove v v')
    (hf : v.Flow got sent left) : v'.Flow got sent left := by
  have hc := hf.conserved .c2o
  have ho := hf.conserved .o2c
  have hg := hf.gotLe
  have hs := hf.sentLe
  simp only [View.delivered, View.taken, View.bufOf] at hc ho
  cases h with
  | received d bs t =>
    cases d with
    | c2o =>
      refine ⟨by simp only [View.setSource, View.source, View.note, List.length_append]; omega, hs,
        fun d => ?_⟩
      cases d with
      | c2o =>
        show v.og.tx ++ (v.rb ++ bs) = left ++ (v.cl.rx ++ bs).drop got
        rw [← List.append_assoc, hc, List.append_assoc, List.drop_append_of_le_length hg]
      | o2c => exact ho
    | o2c =>
      refine ⟨hg, hs, fun d => ?_⟩
      cases d with
      | c2o => exact hc
      | o2c =>
        show v.cl.tx.drop sent ++ (v.wb ++ bs) = v.og.rx ++ bs
        rw [← List.append_assoc, ho]
  | sent d n flawless =>
    cases d with
    | c2o =>
      refine ⟨hg, hs, fun d => ?_⟩
      cases d with
      | c2o =>
        show (v.og.tx ++ v.rb.take n) ++ v.rb.drop n = _
        rw [List.append_assoc, List.take_append_drop]
        exact hc
      | o2c => exact ho
    | o2c =>
      refine ⟨hg, by simp only [View.setSink, View.sink, View.note, List.length_append]; omega,
        fun d => ?_⟩
      cases d with
      | c2o => exact hc
      | o2c =>
        show (v.cl.tx ++ v.wb.take n).drop sent ++ v.wb.drop n = _
        rw [List.drop_append_of_le_length hs, List.append_assoc, List.take_append_drop]
        exact ho
  | eof d | unread d | unsent d | shut d =>
    cases d <;> exact hf.congr ⟨rfl, rfl⟩ ⟨rfl, rfl⟩ fun d' => by cases d' <;> rfl
  | unshut d | synced | finished | broken =>
    exact hf.congr ⟨rfl, rfl⟩ ⟨rfl, rfl⟩ fun d' => by cases d' <;> rfl
  | network cl og hcl hog => exact hf.congr hcl hog fun d' => by cases d' <;> rfl

end Socks5d
