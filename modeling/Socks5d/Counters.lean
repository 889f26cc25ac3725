import Socks5d.Messages
import Socks5d.Lib.Guards

/-! # The counters of the parsers

What each parser relies on when it takes a byte: that it counts down from more
than zero, and that it writes inside its arrays. -/
namespace Socks5d
open Buffer Lib.Incremental Lib.Guards

/-- Behind the guard, what comes in in pieces is parsed as without it. -/
theorem feedPieces_guarded {σ : Type} {ok : σ → Bool} {step : σ → UInt8 → σ} {stop : σ → Bool}
    {Inv : σ → Prop} (hok : ∀ p, Inv p → ok p = true) (hstep : ∀ p x, Inv p → Inv (step p x))
    (pieces : List Bytes) {b : Buffer} {p : σ} (hb : WF b) (he : b.unread = [])
    (hfit : ∀ bs ∈ pieces, bs.length ≤ b.limit) (hp : Inv p) (hrun : stop p = false) :
    (feedPieces (consume (guarded ok step) (guardedStop stop)) (guardedStop stop) pieces b
        (some p)).2.1 = some (feedPieces (consume step stop) stop pieces b p).2.1 := by
  rw [(feedPieces_spec step stop pieces hb he hfit hrun).1,
    (feedPieces_spec (guarded ok step) (guardedStop stop) pieces (p := some p) hb he hfit hrun).1,
    feed_guarded hok hstep _ hp]

theorem countdown {r : UInt8} (h : r ≠ 0) : (r - 1).toNat + 1 = r.toNat := by
  have h1 : 1 ≤ r := UInt8.le_iff_toNat_le.mpr (Lib.Readers.toNat_pos h)
  rw [UInt8.toNat_sub_of_le _ _ h1, UInt8.toNat_one]
  exact Nat.sub_add_cancel (Lib.Readers.toNat_pos h)

theorem countup {r : UInt8} (h : r.toNat < 255) : (r + 1).toNat = r.toNat + 1 := by
  rw [UInt8.toNat_add, UInt8.toNat_one, Nat.mod_eq_of_lt (by omega)]

/-! ## HELLO -/

section Hello
variable {δ : Type}

/-- `parser->remaining--` -/
def helloInRange (s : HelloParser δ × Bool) : Bool := s.1.state != .methods || s.1.remaining != 0

theorem helloInRange_step (f : Option (δ → UInt8 → δ)) (s : HelloParser δ × Bool) (x : UInt8)
    (h : helloInRange s = true) : helloInRange (helloStep f s x) = true := by
  obtain ⟨p, e⟩ := s
  unfold helloInRange at *
  unfold helloStep
  dsimp only at h ⊢
  cases hst : p.state with
  | version => dsimp only; split <;> rfl
  | nmethods =>
    dsimp only
    split
    · rfl
    · next hx => simpa using hx
  | methods =>
    dsimp only
    cases f <;> (dsimp only; split) <;> simp_all
  | done | error => simp [hst]

end Hello

/-! ## AUTH -/

/-- `a[len - remaining] = byte`, `--remaining`, and `a[len] = '\\0'` behind the last. -/
def Inside (len remaining : UInt8) (a : Bytes) : Prop :=
  remaining ≠ 0 ∧ remaining.toNat ≤ len.toNat ∧ len.toNat - remaining.toNat < a.length ∧
    len.toNat < a.length

instance (len remaining : UInt8) (a : Bytes) : Decidable (Inside len remaining a) :=
  inferInstanceAs (Decidable (_ ∧ _))

theorem inside {len remaining : UInt8} {a : Bytes} (ha : a.length = 256) (h0 : remaining ≠ 0)
    (hle : remaining.toNat ≤ len.toNat) : Inside len remaining a := by
  have h1 := Lib.Readers.toNat_pos h0
  have h2 := len.toNat_lt
  exact ⟨h0, hle, by omega, by omega⟩

theorem Inside.next {len remaining : UInt8} {a a' : Bytes} (h : Inside len remaining a)
    (ha : a'.length = a.length) (hmore : remaining - 1 ≠ 0) : Inside len (remaining - 1) a' := by
  obtain ⟨h0, hle, h1, h2⟩ := h
  have hdown := countdown h0
  have hpos := Lib.Readers.toNat_pos hmore
  rw [← ha] at h1 h2
  exact ⟨hmore, by omega, by omega, h2⟩

def authInRange (s : AuthParser × Bool) : Bool :=
  match s.1.state with
  | .uname => decide (Inside s.1.ulen s.1.remaining s.1.uname)
  | .passwd => decide (Inside s.1.plen s.1.remaining s.1.passwd)
  | _ => true

/-- The arrays have their size, and the field that is read has bytes to come. -/
structure AuthCounting (s : AuthParser × Bool) : Prop where
  uname : s.1.uname.length = 256
  passwd : s.1.passwd.length = 256
  counting : authInRange s = true

theorem AuthCounting.step {s : AuthParser × Bool} (h : AuthCounting s) (x : UInt8) :
    AuthCounting (authStep s x) := by
  obtain ⟨p, e⟩ := s
  obtain ⟨hu, hp, hc⟩ := h
  unfold authInRange at hc
  unfold authStep
  dsimp only at hu hp hc ⊢
  cases hst : p.state with
  | ver => dsimp only; split <;> exact ⟨hu, hp, rfl⟩
  | ulen =>
    dsimp only
    split
    · exact ⟨hu, hp, rfl⟩
    · next hx => exact ⟨hu, hp, decide_eq_true (inside hu hx (Nat.le_refl _))⟩
  | uname =>
    rw [hst] at hc
    dsimp only at hc ⊢
    have hw := of_decide_eq_true hc
    have hset : (p.uname.set (p.ulen.toNat - p.remaining.toNat) x).length = p.uname.length :=
      List.length_set
    split
    · exact ⟨List.length_set.trans (hset.trans hu), hp, rfl⟩
    · next hmore =>
      exact ⟨hset.trans hu, hp, decide_eq_true (hw.next hset hmore)⟩
  | plen =>
    dsimp only
    split
    · exact ⟨hu, hp, rfl⟩
    · next hx => exact ⟨hu, hp, decide_eq_true (inside hp hx (Nat.le_refl _))⟩
  | passwd =>
    rw [hst] at hc
    dsimp only at hc ⊢
    have hw := of_decide_eq_true hc
    have hset : (p.passwd.set (p.plen.toNat - p.remaining.toNat) x).length = p.passwd.length :=
      List.length_set
    split
    · exact ⟨hu, List.length_set.trans (hset.trans hp), rfl⟩
    · next hmore =>
      exact ⟨hu, hset.trans hp, decide_eq_true (hw.next hset hmore)⟩
  | done | error => exact ⟨hu, hp, by unfold authInRange; rw [hst]⟩

/-! ## REQUEST -/

/-- How many bytes the address may have. -/
def addrRoom (type : UInt8) : Nat :=
  if type = socksAtypIpv4 then 4 else if type = socksAtypIpv6 then 16 else maxFqdnLen

/-- `addr[p->read++] = byte` and `--p->remaining`; behind the last byte of a name
`fqdn[p->read] = '\\0'`. -/
def requestInRange (s : RequestParser × Bool) : Bool :=
  let p := s.1
  if p.state = .dstAddr ∧ ¬ (p.request.type = socksAtypFqdn ∧ p.remaining = 0) then
    decide (p.remaining ≠ 0 ∧ p.read.toNat < addrRoom p.request.type ∧
      p.read.toNat + 1 < p.request.addr.length)
  else true

/-- What has been read of the address and what is to come fit in. -/
structure RequestCounting (s : RequestParser × Bool) : Prop where
  addr : s.1.request.addr.length = 256
  counting : s.1.state = .dstAddr →
    s.1.read.toNat + s.1.remaining.toNat ≤ addrRoom s.1.request.type ∧
      (s.1.remaining = 0 → s.1.request.type = socksAtypFqdn)

theorem addrRoom_le (type : UInt8) : addrRoom type ≤ 255 := by
  unfold addrRoom
  split
  · decide
  · split <;> decide

theorem RequestCounting.inRange {s : RequestParser × Bool} (h : RequestCounting s) :
    requestInRange s = true := by
  unfold requestInRange
  dsimp only
  split
  · next hc =>
    obtain ⟨hst, hno⟩ := hc
    obtain ⟨hroom, hzero⟩ := h.counting hst
    have h0 : s.1.remaining ≠ 0 := fun h0 => hno ⟨hzero h0, h0⟩
    have hpos := Lib.Readers.toNat_pos h0
    have hle := addrRoom_le s.1.request.type
    have haddr := h.addr
    exact decide_eq_true ⟨h0, by omega, by omega⟩
  · rfl

theorem countDown_counting {p : RequestParser} {e : Bool} (ha : p.request.addr.length = 256)
    (h0 : p.remaining ≠ 0)
    (hroom : p.read.toNat + p.remaining.toNat ≤ addrRoom p.request.type + 1) :
    RequestCounting (p.countDown, e) := by
  unfold RequestParser.countDown
  dsimp only
  have hdown := countdown h0
  split
  · exact ⟨ha, fun h => by cases h⟩
  · next hmore => exact ⟨ha, fun _ => ⟨by dsimp only; omega, fun h => absurd h hmore⟩⟩

theorem RequestCounting.step {s : RequestParser × Bool} (h : RequestCounting s) (x : UInt8) :
    RequestCounting (requestStep s x) := by
  obtain ⟨p, e⟩ := s
  obtain ⟨ha, hc⟩ := h
  unfold requestStep
  dsimp only at ha hc ⊢
  cases hst : p.state with
  | version => dsimp only; split <;> exact ⟨ha, fun h => by cases h⟩
  | cmd => dsimp only; split <;> exact ⟨ha, fun h => by cases h⟩
  | rsv => exact ⟨ha, fun h => by cases h⟩
  | atyp =>
    dsimp only
    split
    · next ht =>
      have hroom : (0 : UInt8).toNat + socksAtypIpv4Len.toNat ≤ addrRoom x := by rw [ht]; decide
      have hmore : socksAtypIpv4Len ≠ 0 := by decide
      exact ⟨ha, fun _ => ⟨hroom, fun h => absurd h hmore⟩⟩
    · split
      · next ht =>
        have hroom : (0 : UInt8).toNat + socksAtypIpv6Len.toNat ≤ addrRoom x := by rw [ht]; decide
        have hmore : socksAtypIpv6Len ≠ 0 := by decide
        exact ⟨ha, fun _ => ⟨hroom, fun h => absurd h hmore⟩⟩
      · split
        · next ht =>
          have hroom : (0 : UInt8).toNat + (0 : UInt8).toNat ≤ addrRoom x := Nat.zero_le _
          exact ⟨ha, fun _ => ⟨hroom, fun _ => ht⟩⟩
        · exact ⟨ha, fun h => by cases h⟩
  | dstAddr =>
    obtain ⟨hroom, hzero⟩ := hc hst
    dsimp only
    split
    · next hlen =>
      split
      · exact ⟨ha, fun h => by cases h⟩
      · next hx =>
        refine ⟨ha, fun _ => ⟨?_, fun h => absurd h hx⟩⟩
        have hx := x.toNat_lt
        rw [hlen.1]
        show 0 + x.toNat ≤ 255
        omega
    · next hno =>
      have h0 : p.remaining ≠ 0 := fun h0 => hno ⟨hzero h0, h0⟩
      have hpos := Lib.Readers.toNat_pos h0
      have hle := addrRoom_le p.request.type
      have hput : ∀ a : Bytes, a.length = 256 → ∀ e : Bool, RequestCounting
          (RequestParser.countDown { p.putAddr x with
            request := { (p.putAddr x).request with addr := a } }, e) := by
        intro a hlen e
        refine countDown_counting hlen h0 ?_
        show (p.read + 1).toNat + p.remaining.toNat ≤ _
        rw [countup (by omega)]
        show _ ≤ addrRoom p.request.type + 1
        omega
      have hset : (p.putAddr x).request.addr.length = 256 := List.length_set.trans ha
      split
      · exact hput _ hset e
      · split
        · exact hput _ hset e
        · split
          · exact ⟨ha, fun h => by cases h⟩
          · split
            · exact hput _ (List.length_set.trans hset) e
            · exact hput _ hset e
  | dstPort =>
    dsimp only
    split <;> exact ⟨ha, fun h => by cases h⟩
  | _ => exact ⟨ha, hc⟩

/-! ## All three -/

/-- No parser counts down at zero or writes outside its arrays, whatever comes in,
in whatever pieces; and no request is refused for the length of its name, unless
that is zero. -/
theorem counters_in_range {b : Buffer} (hb : WF b) (he : b.unread = []) (pieces : List Bytes)
    (hfit : ∀ bs ∈ pieces, bs.length ≤ b.limit) :
    (∀ {δ : Type} (f : Option (δ → UInt8 → δ)) (p : HelloParser δ),
      (feedPieces (consume (guarded helloInRange (helloStep f)) (guardedStop helloStop))
        (guardedStop helloStop) pieces b (some (helloParserInit p, false))).2.1 =
      some (feedPieces (consume (helloStep f) helloStop) helloStop pieces b
        (helloParserInit p, false)).2.1) ∧
    (∀ p : AuthParser, p.uname.length = 256 → p.passwd.length = 256 →
      (feedPieces (consume (guarded authInRange authStep) (guardedStop authStop))
        (guardedStop authStop) pieces b (some (authParserInit p, false))).2.1 =
      some (authPieces pieces b p).2.1) ∧
    ∀ p : RequestParser, p.request.addr.length = 256 →
      (feedPieces (consume (guarded requestInRange requestStep) (guardedStop requestStop))
        (guardedStop requestStop) pieces b (some (requestParserInit p, false))).2.1 =
      some (requestPieces pieces b p).2.1 ∧
      ((requestPieces pieces b p).2.1.1.state = .error →
        (∃ v after, v ≠ socksVersion ∧ pieces.flatten = v :: after) ∨
        ∃ rsv after, pieces.flatten = socksVersion :: socksCmdConnect :: rsv :: socksAtypFqdn :: 0 :: after) := by
  refine ⟨fun f p => ?_, fun p hu hp => ?_, fun p ha => ⟨?_, ?_⟩⟩
  · exact feedPieces_guarded (fun s hs => hs) (fun s x hs => helloInRange_step f s x hs) pieces hb he
      hfit rfl rfl
  · exact feedPieces_guarded (fun s hs => AuthCounting.counting hs) (fun s x hs => hs.step x) pieces hb
      he hfit ⟨hu, hp, rfl⟩ rfl
  · exact feedPieces_guarded (fun s hs => RequestCounting.inRange hs) (fun s x hs => hs.step x) pieces
      hb he hfit ⟨ha, fun h => by cases h⟩ rfl
  · exact (request_exact p ha hb he pieces hfit).2.2.1.mp

/-- A request for a name of 255 bytes, in three pieces, and a parser that was used before. -/
def longestName : List Bytes := [[5, 1, 0, 3, 255], List.replicate 255 97, [0, 80]]

def usedParser : RequestParser := ⟨⟨0, 0, List.replicate 256 1, 0⟩, .done, 9, 9⟩

theorem counters_in_range_longest :
    (feedPieces (consume (guarded requestInRange requestStep) (guardedStop requestStop))
      (guardedStop requestStop) longestName (bufferInit 256 (List.replicate 256 0))
      (some (requestParserInit usedParser, false))).2.1 =
    some (requestPieces longestName (bufferInit 256 (List.replicate 256 0)) usedParser).2.1 := by
  have hb : WF (bufferInit 256 (List.replicate 256 0)) := bufferInit_wf List.length_replicate
  have hfit : ∀ bs ∈ longestName, bs.length ≤ (bufferInit 256 (List.replicate 256 0)).limit := by
    decide +kernel
  exact ((counters_in_range hb (bufferInit_unread _ _) longestName hfit).2.2 usedParser
    List.length_replicate).1

end Socks5d
