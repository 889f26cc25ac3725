import Socks5d.Closing
import Socks5d.Gate

/-! # Tunnels

What is promised of every tunnel of every run: the streams arrive intact, the
directions close in order, the selector always watches what can go on, and the
log and the counters say what went through. -/
namespace Socks5d
open Ctx View Buffer

section Claims
variable {τ : Terms} {ρ : Roster} {w : World} {v : View}

/-! ## The streams -/

/-- Both directions of a tunnel, from what was left of the negotiation on. -/
structure View.Intact (got sent : Nat) (left : Bytes) (v : View) : Prop where
  parsed : ∀ l, .requestProcessed l ∈ v.hist ↔ l = left
  toOrigin : v.og.tx ++ v.rb = left ++ v.cl.rx.drop got
  toClient : v.cl.tx.drop sent ++ v.wb = v.og.rx
  delivered : v.st = some .done →
    v.og.tx = left ++ v.cl.rx.drop got ∧ v.cl.tx.drop sent = v.og.rx

theorem Relayed.start_iff {u : View} {t : Int} (h : Relayed u t v) {got sent : Nat} {left : Bytes} :
    .relayStart got sent left ∈ v.hist ↔
      got = u.cl.rx.length ∧ sent = u.drained.cl.tx.length ∧ left = u.rb := by
  rw [← mem_starts, h.starts]
  simp

theorem Relayed.intact {u : View} {t : Int} (h : Relayed u t v) :
    v.Intact u.cl.rx.length u.drained.cl.tx.length u.rb := by
  have hc := h.flow.conserved .c2o
  have ho := h.flow.conserved .o2c
  refine ⟨fun l => ?_, hc, ho, fun hd => ?_⟩
  · rw [← mem_lefts, h.lefts]
    exact List.mem_singleton
  · have h1 : v.rb = [] := (h.outcome.done hd .c2o).2
    have h2 : v.wb = [] := (h.outcome.done hd .o2c).2
    simp only [View.delivered, View.taken, View.bufOf, h1, h2, List.append_nil] at hc ho
    exact ⟨hc, ho⟩

/-- A relay that has started says so, and one that is at work has started. -/
theorem Reached.tunnel_cases {strict : Prop} (h : Reached strict v) :
    (v.st ≠ some .copy ∧ ∀ got sent left, .relayStart got sent left ∉ v.hist) ∨
      ∃ u t, Opens strict u ∧ Relayed u t v := by
  refine h.relayed.imp_left fun hb => ⟨fun hst => ?_, fun got sent left hm => ?_⟩
  · have hs := hb.staged
    unfold View.Staged at hs
    rw [hst] at hs
    exact hs
  · have := hb.plain _ hm
    cases this

theorem Reached.intact {strict : Prop} (h : Reached strict v) :
    (v.st = some .copy → ∃ got sent left, .relayStart got sent left ∈ v.hist) ∧
      ∀ got sent left, .relayStart got sent left ∈ v.hist → v.Intact got sent left := by
  rcases h.tunnel_cases with ⟨hst, hno⟩ | ⟨u, t, -, hr⟩
  · exact ⟨fun hc => absurd hc hst, fun got sent left hm => absurd hm (hno got sent left)⟩
  · refine ⟨fun _ => ⟨_, _, _, hr.start_iff.mpr ⟨rfl, rfl, rfl⟩⟩, fun got sent left hm => ?_⟩
    obtain ⟨rfl, rfl, rfl⟩ := hr.start_iff.mp hm
    exact hr.intact

/-- In every state of every run, what a tunnel has sent to either end and what
it still holds is what was left of the negotiation and what it has received, in
order; a tunnel that is done has delivered all of it. -/
theorem relay_integrity (b : Boot) (is : List Input) (hv : (b.start.run is).Session v) :
    (v.st = some .copy → ∃ got sent left, .relayStart got sent left ∈ v.hist) ∧
      ∀ got sent left, .relayStart got sent left ∈ v.hist → v.Intact got sent left := by
  obtain ⟨ρ, h⟩ := b.orderly is
  refine h.every hv Reached.intact fun {u l} hr hf hi => ?_
  obtain ⟨h1, h2⟩ := hi
  refine ⟨fun hst => ?_, fun got sent left hm => ?_⟩
  · obtain ⟨got, sent, left, hm⟩ := h1 hst
    exact ⟨got, sent, left, (hf.mem rfl).mpr hm⟩
  · have hi := h2 got sent left ((hf.mem rfl).mp hm)
    exact ⟨fun l' => (hf.mem rfl).trans (hi.parsed l'), hi.toOrigin, hi.toClient, hi.delivered⟩

/-- A client sent two bytes behind its request. -/
theorem relay_integrity_sample :
    ((Boot.open.start.run Input.tunnel).ctx 0).view.Intact 15 12 [104, 105] :=
  (relay_integrity Boot.open Input.tunnel (.live tunnel_serves)).2 15 12 [104, 105]
    (by decide +kernel)

/-! ## Half-closing -/

theorem Final.about {fair : View → Limit → Int → Prop} {u : View} {l : List Obs}
    (h : Final fair u l) (d : Dir) : ∀ o ∈ l, o.about d = false := by
  intro o ho
  have := h.closing o ho
  cases o <;> first | rfl | cases this

/-- Connections are shut down for writing by the `shutdown` of their direction only. -/
def View.Shut (v : View) : Prop := ∀ d, (v.sink d).shutWr = true → .relayShut d true ∈ v.hist

theorem Move.shut {strict : Prop} {v' : View} (h : Move strict v v') (hv : v.Shut) : v'.Shut := by
  obtain ⟨l, -, hl, -⟩ := h.passage
  have hgrow : ∀ {d}, .relayShut d true ∈ v.hist → .relayShut d true ∈ v'.hist := fun hm => by
    rw [hl]
    exact List.mem_append_left l hm
  have hsame : (∀ d, (v'.sink d).shutWr = true → (v.sink d).shutWr = true) → v'.Shut :=
    fun hs d hd => hgrow (hv d (hs d hd))
  cases h with
  | relayShut d shut =>
    intro d' hd'
    by_cases he : d' = d
    · rw [he]
      simp
    · refine hgrow (hv d' ?_)
      cases d <;> cases d' <;> first | exact absurd rfl he | exact hd'
  | relayReceived d | relayEof d | relayUnread d | relaySent d | relayUnsent d =>
    exact hsame fun d' hd' => by cases d <;> cases d' <;> exact hd'
  | attemptOpened a rest fd k ha hk =>
    refine hsame fun d' hd' => ?_
    cases d' with
    | c2o => rcases hk with rfl | rfl <;> cases hd'
    | o2c => exact hd'
  | originFailed | originGaveUp | connectTimedOut =>
    refine hsame fun d' hd' => ?_
    cases d' with
    | c2o => cases hd'
    | o2c => exact hd'
  | _ => exact hsame fun d' hd' => by cases d' <;> exact hd'

theorem Reached.shut {strict : Prop} (h : Reached strict v) : v.Shut :=
  h.induct (fun fd t d hd => by cases d <;> cases hd) fun _ hv hm => hm.shut hv

/-- What the source and the sink of a direction are watched for. -/
def Socks5.sourceInterest (s : Socks5) : Dir → Interest
  | .c2o => copyClientInterest s
  | .o2c => copyOriginInterest s

def Socks5.sinkInterest (s : Socks5) : Dir → Interest
  | .c2o => copyOriginInterest s
  | .o2c => copyClientInterest s

/-- A direction that is not closed can go on by what is watched, and nothing
else is watched. -/
structure Socks5.Watches (s : Socks5) (d : Dir) : Prop where
  alive : (s.copyOf d).writeClosed = false →
    (s.sourceInterest d).read = true ∨ (s.sinkInterest d).write = true
  reads : (s.sourceInterest d).read = true →
    (s.copyOf d).eof = false ∧ (s.bufOf d).bufferCanWrite = true
  writes : (s.sinkInterest d).write = true → (s.bufOf d).bufferCanRead = true

theorem watches {s : Socks5} {d : Dir} (hb : WF (s.bufOf d)) (hl : (s.bufOf d).limit = bufferSize)
    (hdrains : (s.copyOf d).eof = true → (s.copyOf d).writeClosed = false →
      (s.bufOf d).bufferCanRead = true) : s.Watches d := by
  have hread : (s.sourceInterest d).read =
      (!(s.copyOf d).eof && (s.bufOf d).bufferCanWrite) := by cases d <;> rfl
  have hwrite : (s.sinkInterest d).write =
      (!(s.copyOf d).writeClosed && (s.bufOf d).bufferCanRead) := by cases d <;> rfl
  refine ⟨fun hopen => ?_, fun h => ?_, fun h => ?_⟩
  · rw [hread, hwrite, hopen]
    cases heof : (s.copyOf d).eof with
    | true => exact Or.inr (hdrains heof hopen)
    | false =>
      -- a buffer that has no room holds something
      cases hw : (s.bufOf d).bufferCanWrite with
      | true => exact Or.inl rfl
      | false =>
        refine Or.inr ?_
        have h1 := hb.rest
        have h2 := hb.readLe
        simp only [bufferCanWrite, decide_eq_false_iff_not, Nat.not_lt] at hw
        simp only [bufferCanRead, Bool.not_false, Bool.true_and, decide_eq_true_eq]
        by_contra hnot
        have he : (s.bufOf d).read = (s.bufOf d).write := by omega
        rw [h1 he] at he
        rw [← he, hl] at hw
        cases hw
  · rw [hread, Bool.and_eq_true, Bool.not_eq_true'] at h
    exact h
  · rw [hwrite, Bool.and_eq_true] at h
    exact h.2

/-- Between two steps, both descriptors of a tunnel are watched for what
`copy_client_interest` and `copy_origin_interest` say, which is something to do
for every direction that is not closed, and nothing that cannot be done. -/
theorem relay_watched (b : Boot) (is : List Input) {p : Ptr} (hp : (b.start.run is).Serves p)
    (hst : ((b.start.run is).mem p).stm = some .copy) :
    ((b.start.run is).sel.fds ((b.start.run is).mem p).clientFd =
        some ⟨copyClientInterest ((b.start.run is).mem p), .socks5, p⟩ ∧
      ∃ fd, ((b.start.run is).mem p).originFd = some fd ∧ (b.start.run is).sel.fds fd =
        some ⟨copyOriginInterest ((b.start.run is).mem p), .socks5, p⟩) ∧
    ∀ d, ((b.start.run is).mem p).Watches d := by
  obtain ⟨ρ, h⟩ := b.orderly is
  have ha := h.inv.serves_iff.mp hp
  have hown := h.inv.own p ha
  have hlive := (h.inv.sound ha).live (h.calm p ha)
  obtain ⟨hci, hoi⟩ := hlive.rest.armed hst
  obtain ⟨fd, hor⟩ := (hlive.relay hst).origin
  refine ⟨⟨?_, fd, hor, ?_⟩, fun d => ?_⟩
  · obtain ⟨⟨i, hi⟩, -⟩ := hown.client
    have hi : (b.start.run is).sel.fds ((b.start.run is).mem p).clientFd = some ⟨i, .socks5, p⟩ := hi
    have hc : (((b.start.run is).sel.fds ((b.start.run is).mem p).clientFd).map
      Item.interest).getD opNoop = copyClientInterest ((b.start.run is).mem p) := hci
    rw [hi] at hc ⊢
    rw [← hc]
    rfl
  · obtain ⟨⟨i, hi⟩, -⟩ := hown.origin fd hor
    have hi : (b.start.run is).sel.fds fd = some ⟨i, .socks5, p⟩ := hi
    have hor' : ((b.start.run is).mem p).originFd = some fd := hor
    have ho : ((((b.start.run is).mem p).originFd.bind (b.start.run is).sel.fds).map
      Item.interest).getD opNoop = copyOriginInterest ((b.start.run is).mem p) := hoi
    rw [hor', Option.bind_some, hi] at ho
    rw [hi, ← ho]
    rfl
  · obtain ⟨hb, hl⟩ := hown.bufOf_wf d
    refine watches hb hl fun heof hopen => ?_
    have hd := (hlive.flowing hst).drains d
    rw [View.Drains, ← copyOf_view] at hd
    refine hb.canRead_iff.mpr ?_
    show (((b.start.run is).ctx p).s.bufOf d).unread ≠ []
    rw [bufOf_view]
    exact hd heof hopen

theorem relay_watched_sample : ((Boot.open.start.run Input.tunnel).mem 0).Watches .c2o :=
  (relay_watched Boot.open Input.tunnel tunnel_serves (by decide +kernel)).2 .c2o

end Claims
end Socks5d
