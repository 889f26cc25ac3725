import Socks5d.Parsers
import Socks5d.Lib.Readers

/-! # What the parsers accept

For each message a reader that says what it is, whole. The byte-fed machines
come to the same, however their input is cut: what they have stored is what the
message says, and what they leave is what comes after it. -/
namespace Socks5d
open Buffer Lib.Incremental Lib.Readers Lib.Readers.Reading

/-! ## Input in pieces -/

section Pieces
variable {σ : Type}

/-- A caller of a parser: what arrives is put into the buffer and parsed, until
a terminal state is reached. The pieces it has not come to are left. -/
def feedPieces (consume : Buffer → σ → Buffer × σ) (stop : σ → Bool) :
    List Bytes → Buffer → σ → Buffer × σ × List Bytes
  | [], b, p => (b, p, [])
  | bs :: rest, b, p =>
    let r := consume ((b.store bs).bufferWriteAdv bs.length) p
    if stop r.2 then (r.1, r.2, rest) else feedPieces consume stop rest r.1 r.2

theorem store_nil {b : Buffer} (h : WF b) : (b.store []).bufferWriteAdv 0 = b := by
  have hw := h.writeLe
  have ha := h.asserted
  cases b
  simp_all [store, bufferWriteAdv, overwrite]

/-- A piece that fits is added to what an empty buffer holds. -/
theorem WF.piece {b : Buffer} (h : WF b) (he : b.unread = []) {bs : Bytes}
    (hfit : bs.length ≤ b.limit) : WF ((b.store bs).bufferWriteAdv bs.length) ∧
      ((b.store bs).bufferWriteAdv bs.length).unread = bs := by
  have hw : b.write = 0 := by
    have h1 := h.unread_length
    rw [he, List.length_nil] at h1
    have h2 := h.readLe
    have h3 := h.rest
    omega
  cases bs with
  | nil =>
    rw [List.length_nil, store_nil h]
    exact ⟨h, he⟩
  | cons x xs =>
    refine ⟨h.fill (by unfold bufferWritePtr; omega) (by simp), ?_⟩
    rw [h.fill_unread, he, List.nil_append]

/-- Pieces are parsed as the string they make up. -/
theorem feedPieces_spec (step : σ → UInt8 → σ) (stop : σ → Bool) :
    ∀ (pieces : List Bytes) {b : Buffer} {p : σ}, WF b → b.unread = [] →
      (∀ bs ∈ pieces, bs.length ≤ b.limit) → stop p = false →
      (feedPieces (consume step stop) stop pieces b p).2.1 = (feed step stop p pieces.flatten).1 ∧
      (feedPieces (consume step stop) stop pieces b p).1.unread ++
          (feedPieces (consume step stop) stop pieces b p).2.2.flatten =
        (feed step stop p pieces.flatten).2
  | [], b, p, _, he, _, _ => ⟨rfl, by simp [feedPieces, he]⟩
  | bs :: rest, b, p, h, he, hfit, hp => by
    obtain ⟨hwf, hun⟩ := WF.piece h he (hfit bs List.mem_cons_self)
    obtain ⟨h1, h2, h3, h4⟩ := consume_spec hwf p
    rw [hun] at h3 h4
    unfold feedPieces
    simp only [List.flatten_cons]
    by_cases hs : stop (feed step stop p bs).1 = true
    · rw [feed_append_of_stopped bs _ p hp hs, h4, if_pos hs]
      exact ⟨rfl, by rw [h3]⟩
    · have hs : stop (feed step stop p bs).1 = false := by simpa using hs
      rw [feed_append_of_running bs _ p hp hs, h4, hs]
      have hempty := h3.trans (feed_rest_nil bs p hs)
      exact feedPieces_spec step stop rest h1 hempty
        (fun xs hx => by rw [h2]; exact hfit xs (List.mem_cons_of_mem _ hx)) hs

end Pieces

/-! ## Fields -/

/-- An array whose first bytes have been written. -/
def filled (m xs : Bytes) : Bytes := xs ++ m.drop xs.length

@[simp] theorem filled_nil (m : Bytes) : filled m [] = m := rfl

theorem filled_length {m xs : Bytes} (h : xs.length ≤ m.length) : (filled m xs).length = m.length := by
  simp only [filled, List.length_append, List.length_drop]
  omega

theorem filled_set {m xs : Bytes} (h : xs.length < m.length) (x : UInt8) :
    (filled m xs).set xs.length x = filled m (xs ++ [x]) := by
  unfold filled
  rw [List.set_append_right _ _ (Nat.le_refl _), Nat.sub_self, List.drop_eq_getElem_cons h,
    List.set_cons_zero, List.length_append, List.length_singleton, List.append_assoc]
  rfl

theorem filled_take (m xs : Bytes) : (filled m xs).take xs.length = xs := List.take_left

/-- The array holds `xs` and a zero byte behind it. -/
def Terminated (m xs : Bytes) : Prop := m.take xs.length = xs ∧ m[xs.length]? = some 0

theorem terminated_filled {m xs : Bytes} (h : xs.length < m.length) :
    Terminated ((filled m xs).set xs.length 0) xs := by
  refine ⟨?_, ?_⟩
  · rw [List.take_set_of_le (Nat.le_refl _), filled_take]
  · rw [List.getElem?_set_self (by rw [filled_length (Nat.le_of_lt h)]; exact h)]

/-- A countdown from `l` after `k` turns. -/
def left (l : UInt8) (k : Nat) : UInt8 := UInt8.ofNat (l.toNat - k)

@[simp] theorem left_zero (l : UInt8) : left l 0 = l := UInt8.ofNat_toNat

theorem left_toNat (l : UInt8) (k : Nat) : (left l k).toNat = l.toNat - k := by
  have := l.toNat_lt
  exact UInt8.toNat_ofNat_of_lt' (by simp only [UInt8.size]; omega)

theorem left_succ {l : UInt8} {k : Nat} (h : k + 1 ≤ l.toNat) : left l k - 1 = left l (k + 1) := by
  have h1 : 1 ≤ left l k := by
    rw [UInt8.le_iff_toNat_le, left_toNat, UInt8.toNat_one]
    omega
  refine UInt8.toNat_inj.mp ?_
  rw [UInt8.toNat_sub_of_le _ _ h1, left_toNat, left_toNat, UInt8.toNat_one]
  omega

theorem left_eq_zero {l : UInt8} {k : Nat} : left l k = 0 ↔ l.toNat ≤ k := by
  rw [← UInt8.toNat_inj, left_toNat, UInt8.toNat_zero]
  omega

theorem left_index {l : UInt8} {k : Nat} (h : k + 1 ≤ l.toNat) :
    l.toNat - (left l k).toNat = k := by
  rw [left_toNat]
  omega

/-- A field of `n` bytes that goes into an array: `mk a k` is the state when `k`
of them have come and the array is `a`. -/
theorem feed_array {σ : Type} (step : σ → UInt8 → σ) (stop : σ → Bool) (mk : Bytes → Nat → σ)
    (next : Bytes → σ) {n : Nat} (hn : 0 < n) {m : Bytes} (hm : n ≤ m.length)
    (hmore : ∀ a k x, k + 1 < n → step (mk a k) x = mk (a.set k x) (k + 1))
    (hlast : ∀ a k x, k + 1 = n → step (mk a k) x = next (a.set k x))
    (hrun : ∀ a k, k < n → stop (mk a k) = false) (bs : Bytes) :
    feed step stop (mk m 0) bs = if bs.length < n then (mk (filled m bs) bs.length, [])
      else if stop (next (filled m (bs.take n))) then (next (filled m (bs.take n)), bs.drop n)
      else feed step stop (next (filled m (bs.take n))) (bs.drop n) := by
  have h := feed_field step stop (n := n)
    (fun xs => mk (filled m xs) xs.length) (fun xs => next (filled m xs))
    (fun xs x hx => by
      rw [hmore _ _ _ hx, filled_set (by omega), List.length_append, List.length_singleton])
    (fun xs x hx => by rw [hlast _ _ _ hx, filled_set (by omega)])
    (fun xs hx => hrun _ _ hx) bs [] hn
  simpa using h

/-! ## AUTH -/

structure Credentials where
  uname : Field
  passwd : Field

def Credentials.encode (c : Credentials) : Bytes :=
  [authVersion] ++ c.uname.encode ++ c.passwd.encode

/-- `01`, a user name and a password, each behind its length. -/
def decodeAuth (bs : Bytes) : Reading Unit Credentials :=
  (takeByte bs).andThen fun v bs =>
    if v = authVersion then
      (takeField () bs).andThen fun uname bs =>
        (takeField () bs).andThen fun passwd bs => done ⟨uname, passwd⟩ bs
    else failed () bs

theorem decodeAuth_done {bs rest : Bytes} {c : Credentials} :
    decodeAuth bs = done c rest ↔ bs = c.encode ++ rest := by
  unfold decodeAuth Credentials.encode
  rw [andThen_eq_done]
  constructor
  · rintro ⟨v, mid, hv, h⟩
    rw [takeByte_done] at hv
    split at h
    · next hver =>
      obtain ⟨uname, mid', hu, h⟩ := andThen_eq_done.mp h
      obtain ⟨passwd, mid'', hp, h⟩ := andThen_eq_done.mp h
      rw [takeField_done] at hu hp
      cases h
      rw [hv, hver, hu, hp]
      simp
    · cases h
  · rintro rfl
    refine ⟨authVersion, c.uname.encode ++ (c.passwd.encode ++ rest), by simp, ?_⟩
    rw [if_pos rfl, takeField_done.mpr rfl, andThen_done, takeField_done.mpr rfl]
    rfl

/-- The message is wrong at its version or at a length of zero. -/
theorem decodeAuth_failed {bs rest : Bytes} : decodeAuth bs = failed () rest ↔
    (∃ v, v ≠ authVersion ∧ bs = v :: rest) ∨ bs = authVersion :: 0 :: rest ∨
      ∃ uname : Field, bs = authVersion :: uname.encode ++ 0 :: rest := by
  unfold decodeAuth
  rw [andThen_eq_failed]
  constructor
  · rintro (h | ⟨v, mid, hv, h⟩)
    · exact absurd h takeByte_failed
    · rw [takeByte_done] at hv
      split at h
      · next hver =>
        subst hver
        rcases andThen_eq_failed.mp h with h | ⟨uname, mid', hu, h⟩
        · rw [(takeField_failed.mp h).1] at hv
          exact Or.inr (Or.inl hv)
        · rw [takeField_done] at hu
          rcases andThen_eq_failed.mp h with h | ⟨passwd, mid'', -, h⟩
          · refine Or.inr (Or.inr ⟨uname, ?_⟩)
            rw [hv, hu, (takeField_failed.mp h).1]
            rfl
          · cases h
      · next hver =>
        cases h
        exact Or.inl ⟨v, hver, hv⟩
  · rintro (⟨v, hv, rfl⟩ | rfl | ⟨uname, rfl⟩)
    · exact Or.inr ⟨v, rest, rfl, if_neg hv⟩
    · exact Or.inr ⟨authVersion, 0 :: rest, rfl, rfl⟩
    · refine Or.inr ⟨authVersion, uname.encode ++ 0 :: rest, rfl, ?_⟩
      rw [if_pos rfl, takeField_done.mpr rfl]
      rfl

abbrev authFeed : AuthParser × Bool → Bytes → (AuthParser × Bool) × Bytes := feed authStep authStop

theorem feed_uname (p : AuthParser) {l : UInt8} (hl : l ≠ 0) (hm : p.uname.length = 256) (e : Bool)
    (bs : Bytes) :
    authFeed ({ p with state := .uname, ulen := l, remaining := l }, e) bs =
      if bs.length < l.toNat then
        (({ p with
          state := .uname, ulen := l, uname := filled p.uname bs
          remaining := left l bs.length }, e), [])
      else authFeed ({ p with
        state := .plen, ulen := l, uname := (filled p.uname (bs.take l.toNat)).set l.toNat 0
        remaining := 0 }, e) (bs.drop l.toNat) := by
  have hlt := l.toNat_lt
  have h := feed_array authStep authStop
    (fun a k =>
      ({ p with state := .uname, ulen := l, uname := a, remaining := left l k }, e))
    (fun a => ({ p with
      state := .plen, ulen := l, uname := a.set l.toNat 0, remaining := 0 }, e))
    (toNat_pos hl) (m := p.uname) (by omega)
    (fun a k x hk => by
      have hne : left l (k + 1) ≠ 0 := by rw [Ne, left_eq_zero]; omega
      simp only [authStep, left_index (Nat.le_of_lt hk), left_succ (Nat.le_of_lt hk), hne, if_false])
    (fun a k x hk => by
      have he : left l (k + 1) = 0 := left_eq_zero.mpr (Nat.le_of_eq hk.symm)
      simp only [authStep, left_index (Nat.le_of_eq hk), left_succ (Nat.le_of_eq hk), he, if_true])
    (fun a k _ => rfl) bs
  rw [left_zero] at h
  exact h

theorem feed_passwd (p : AuthParser) {l : UInt8} (hl : l ≠ 0) (hm : p.passwd.length = 256)
    (e : Bool) (bs : Bytes) :
    authFeed ({ p with state := .passwd, plen := l, remaining := l }, e) bs =
      if bs.length < l.toNat then
        (({ p with
          state := .passwd, plen := l, passwd := filled p.passwd bs
          remaining := left l bs.length }, e), [])
      else (({ p with
        state := .done, plen := l, passwd := (filled p.passwd (bs.take l.toNat)).set l.toNat 0
        remaining := 0 }, e), bs.drop l.toNat) := by
  have hlt := l.toNat_lt
  have h := feed_array authStep authStop
    (fun a k =>
      ({ p with state := .passwd, plen := l, passwd := a, remaining := left l k }, e))
    (fun a => ({ p with
      state := .done, plen := l, passwd := a.set l.toNat 0, remaining := 0 }, e))
    (toNat_pos hl) (m := p.passwd) (by omega)
    (fun a k x hk => by
      have hne : left l (k + 1) ≠ 0 := by rw [Ne, left_eq_zero]; omega
      simp only [authStep, left_index (Nat.le_of_lt hk), left_succ (Nat.le_of_lt hk), hne, if_false])
    (fun a k x hk => by
      have he : left l (k + 1) = 0 := left_eq_zero.mpr (Nat.le_of_eq hk.symm)
      simp only [authStep, left_index (Nat.le_of_eq hk), left_succ (Nat.le_of_eq hk), he, if_true])
    (fun a k _ => rfl) bs
  rw [left_zero] at h
  exact h

/-- What the parser is to have come to, when the message reads as `r`; `left`
is what it has not looked at. -/
def AuthParser.Tells (p : AuthParser) (error : Bool) (rest : Bytes) :
    Reading Unit Credentials → Prop
  | .done c after => p.state = .done ∧ error = false ∧ rest = after ∧
      Terminated p.uname c.uname.val ∧ Terminated p.passwd c.passwd.val
  | .failed _ after => p.state = .error ∧ error = true ∧ rest = after
  | .more => authIsDone p.state = false ∧ error = false ∧ rest = []

theorem authFeed_plen (p : AuthParser) {uname : Field} (hu : Terminated p.uname uname.val)
    (hp : p.passwd.length = 256) (bs : Bytes) :
    (authFeed ({ p with state := .plen }, false) bs).1.1.Tells
      (authFeed ({ p with state := .plen }, false) bs).1.2
      (authFeed ({ p with state := .plen }, false) bs).2
      ((takeField () bs).andThen fun passwd rest => done ⟨uname, passwd⟩ rest) := by
  cases bs with
  | nil => exact ⟨rfl, rfl, rfl⟩
  | cons l bs =>
    by_cases hl : l = 0
    · subst hl
      exact ⟨rfl, rfl, rfl⟩
    · have hstep : authFeed ({ p with state := .plen }, false) (l :: bs) =
          authFeed ({ p with state := .passwd, plen := l, remaining := l }, false) bs := by
        simp [authFeed, feed_cons, authStep, authStop, hl]
      rw [hstep, feed_passwd p hl hp]
      by_cases hlen : bs.length < l.toNat
      · rw [if_pos hlen, takeField_short hl hlen]
        exact ⟨rfl, rfl, rfl⟩
      · rw [if_neg hlen]
        obtain ⟨passwd, hpw, hpl, he⟩ := takeField_enough (e := ()) hl hlen
        rw [he, andThen_done, ← hpw, ← hpl]
        have hlt := passwd.property.2
        exact ⟨rfl, rfl, rfl, hu, terminated_filled (by omega)⟩

theorem authFeed_ulen (p : AuthParser) (hu : p.uname.length = 256) (hp : p.passwd.length = 256)
    (bs : Bytes) :
    (authFeed ({ p with state := .ulen }, false) bs).1.1.Tells
      (authFeed ({ p with state := .ulen }, false) bs).1.2
      (authFeed ({ p with state := .ulen }, false) bs).2
      ((takeField () bs).andThen fun uname rest =>
        (takeField () rest).andThen fun passwd rest => done ⟨uname, passwd⟩ rest) := by
  cases bs with
  | nil => exact ⟨rfl, rfl, rfl⟩
  | cons l bs =>
    by_cases hl : l = 0
    · subst hl
      exact ⟨rfl, rfl, rfl⟩
    · have hstep : authFeed ({ p with state := .ulen }, false) (l :: bs) =
          authFeed ({ p with state := .uname, ulen := l, remaining := l }, false) bs := by
        simp [authFeed, feed_cons, authStep, authStop, hl]
      rw [hstep, feed_uname p hl hu]
      by_cases hlen : bs.length < l.toNat
      · rw [if_pos hlen, takeField_short hl hlen]
        exact ⟨rfl, rfl, rfl⟩
      · rw [if_neg hlen]
        obtain ⟨uname, hun, hul, he⟩ := takeField_enough (e := ()) hl hlen
        rw [he, andThen_done, ← hun, ← hul]
        have hlt := uname.property.2
        exact authFeed_plen { p with
          ulen := l, uname := (filled p.uname uname.val).set uname.val.length 0, remaining := 0 }
          (terminated_filled (by omega)) hp _

theorem authFeed_tells (p : AuthParser) (hu : p.uname.length = 256) (hp : p.passwd.length = 256)
    (bs : Bytes) :
    (authFeed (authParserInit p, false) bs).1.1.Tells (authFeed (authParserInit p, false) bs).1.2
      (authFeed (authParserInit p, false) bs).2 (decodeAuth bs) := by
  unfold decodeAuth authParserInit
  cases bs with
  | nil => exact ⟨rfl, rfl, rfl⟩
  | cons v bs =>
    show AuthParser.Tells _ _ _ (if v = authVersion then _ else _)
    by_cases hv : v = authVersion
    · subst hv
      exact authFeed_ulen { p with remaining := 0, ulen := 0, plen := 0 } hu hp bs
    · have hstep : authFeed ({ p with state := .ver, remaining := 0, ulen := 0, plen := 0 }, false)
          (v :: bs) = (({ p with state := .error, remaining := 0, ulen := 0, plen := 0 }, true), bs) := by
        simp [authFeed, feed_cons, authStep, authStop, hv]
      rw [hstep, if_neg hv]
      exact ⟨rfl, rfl, rfl⟩

/-! ## HELLO -/

/-- `05` and a list of methods behind its length. -/
def decodeHello (bs : Bytes) : Reading Unit Field :=
  (takeByte bs).andThen fun v bs => if v = socksVersion then takeField () bs else failed () bs

theorem decodeHello_done {bs rest : Bytes} {methods : Field} :
    decodeHello bs = done methods rest ↔ bs = [socksVersion] ++ methods.encode ++ rest := by
  unfold decodeHello
  rw [andThen_eq_done]
  constructor
  · rintro ⟨v, mid, hv, h⟩
    rw [takeByte_done] at hv
    split at h
    · next hver =>
      rw [hv, hver, takeField_done.mp h]
      rfl
    · cases h
  · rintro rfl
    refine ⟨socksVersion, methods.encode ++ rest, rfl, ?_⟩
    rw [if_pos rfl, takeField_done.mpr rfl]

theorem decodeHello_failed {bs rest : Bytes} : decodeHello bs = failed () rest ↔
    (∃ v, v ≠ socksVersion ∧ bs = v :: rest) ∨ bs = socksVersion :: 0 :: rest := by
  unfold decodeHello
  rw [andThen_eq_failed]
  constructor
  · rintro (h | ⟨v, mid, hv, h⟩)
    · exact absurd h takeByte_failed
    · rw [takeByte_done] at hv
      split at h
      · next hver =>
        rw [hver, (takeField_failed.mp h).1] at hv
        exact Or.inr hv
      · next hver =>
        cases h
        exact Or.inl ⟨v, hver, hv⟩
  · rintro (⟨v, hv, rfl⟩ | rfl)
    · exact Or.inr ⟨v, rest, rfl, if_neg hv⟩
    · exact Or.inr ⟨socksVersion, 0 :: rest, rfl, rfl⟩

section Hello
variable {δ : Type} (f : δ → UInt8 → δ)

abbrev helloFeed : HelloParser δ × Bool → Bytes → (HelloParser δ × Bool) × Bytes :=
  feed (helloStep (some f)) helloStop

theorem feed_methods (d : δ) {l : UInt8} (hl : l ≠ 0) (bs : Bytes) :
    helloFeed f (⟨d, .methods, l⟩, false) bs =
      if bs.length < l.toNat then ((⟨bs.foldl f d, .methods, left l bs.length⟩, false), [])
      else ((⟨(bs.take l.toNat).foldl f d, .done, 0⟩, false), bs.drop l.toNat) := by
  have h := feed_field (helloStep (some f)) helloStop (n := l.toNat)
    (fun xs => (⟨xs.foldl f d, .methods, left l xs.length⟩, false))
    (fun xs => (⟨xs.foldl f d, .done, 0⟩, false))
    (fun xs x hx => by
      have hne : left l (xs.length + 1) ≠ 0 := by rw [Ne, left_eq_zero]; omega
      simp only [helloStep, left_succ (Nat.le_of_lt hx), hne, if_false, List.foldl_append,
        List.foldl_cons, List.foldl_nil, List.length_append, List.length_singleton])
    (fun xs x hx => by
      have he : left l (xs.length + 1) = 0 := left_eq_zero.mpr (Nat.le_of_eq hx.symm)
      simp only [helloStep, left_succ (Nat.le_of_eq hx), he, if_true, List.foldl_append,
        List.foldl_cons, List.foldl_nil])
    (fun xs _ => rfl) bs [] (toNat_pos hl)
  simp only [List.foldl_nil, List.nil_append, List.length_nil, Nat.zero_add, Nat.sub_zero,
    left_zero] at h
  exact h

/-- What the parser is to have come to, when the message reads as `r`. -/
def HelloParser.Tells (d : δ) (p : HelloParser δ) (error : Bool) (rest : Bytes) :
    Reading Unit Field → Prop
  | .done methods after => p.state = .done ∧ error = false ∧ rest = after ∧
      p.data = methods.val.foldl f d
  | .failed _ after => p.state = .error ∧ error = true ∧ rest = after
  | .more => helloIsDone p.state = false ∧ error = false ∧ rest = []

theorem helloFeed_tells (p : HelloParser δ) (bs : Bytes) :
    (helloFeed f (helloParserInit p, false) bs).1.1.Tells f p.data
      (helloFeed f (helloParserInit p, false) bs).1.2
      (helloFeed f (helloParserInit p, false) bs).2 (decodeHello bs) := by
  unfold decodeHello helloParserInit
  cases bs with
  | nil => exact ⟨rfl, rfl, rfl⟩
  | cons v bs =>
    show HelloParser.Tells f _ _ _ _ (if v = socksVersion then _ else _)
    by_cases hv : v = socksVersion
    · subst hv
      show HelloParser.Tells f _ _ _ _ (takeField () bs)
      have hstep : helloFeed f (⟨p.data, .version, 0⟩, false) (socksVersion :: bs) =
          helloFeed f (⟨p.data, .nmethods, 0⟩, false) bs := rfl
      rw [hstep]
      cases bs with
      | nil => exact ⟨rfl, rfl, rfl⟩
      | cons l bs =>
        by_cases hl : l = 0
        · subst hl
          exact ⟨rfl, rfl, rfl⟩
        · have hstep : helloFeed f (⟨p.data, .nmethods, 0⟩, false) (l :: bs) =
              helloFeed f (⟨p.data, .methods, l⟩, false) bs := by
            simp [helloFeed, feed_cons, helloStep, helloStop, hl]
          rw [hstep, feed_methods f p.data hl]
          by_cases hlen : bs.length < l.toNat
          · rw [if_pos hlen, takeField_short hl hlen]
            exact ⟨rfl, rfl, rfl⟩
          · rw [if_neg hlen]
            obtain ⟨methods, hm, -, he⟩ := takeField_enough (e := ()) hl hlen
            rw [he, ← hm]
            exact ⟨rfl, rfl, rfl, rfl⟩
    · have hstep : helloFeed f (⟨p.data, .version, 0⟩, false) (v :: bs) =
          ((⟨p.data, .error, 0⟩, true), bs) := by
        simp [helloFeed, feed_cons, helloStep, helloStop, hv]
      rw [hstep, if_neg hv]
      exact ⟨rfl, rfl, rfl⟩

end Hello

/-! ## REQUEST -/

inductive RequestFault | malformed | command | addressType
  deriving DecidableEq, Repr

inductive Host
  | ipv4 (a : Exactly 4)
  | ipv6 (a : Exactly 16)
  | fqdn (name : Field)

namespace Host
def type : Host → UInt8
  | .ipv4 _ => socksAtypIpv4
  | .ipv6 _ => socksAtypIpv6
  | .fqdn _ => socksAtypFqdn

def encode : Host → Bytes
  | .ipv4 a => a.val
  | .ipv6 a => a.val
  | .fqdn name => name.encode
end Host

/-- What a CONNECT request asks for. -/
structure Connect where
  host : Host
  port : UInt16

def encodePort (port : UInt16) : Bytes := [(port >>> 8).toUInt8, port.toUInt8]

def Connect.encode (rsv : UInt8) (m : Connect) : Bytes :=
  [socksVersion, socksCmdConnect, rsv, m.host.type] ++ m.host.encode ++ encodePort m.port

def takePort (bs : Bytes) : Reading RequestFault UInt16 :=
  (takeByte bs).andThen fun hi bs =>
    (takeByte bs).andThen fun lo bs => done (hi.toUInt16 <<< 8 ||| lo.toUInt16) bs

def takeHost (atyp : UInt8) (bs : Bytes) : Reading RequestFault Host :=
  if atyp = socksAtypIpv4 then (takeExactly 4 bs).andThen fun a rest => done (.ipv4 a) rest
  else if atyp = socksAtypIpv6 then (takeExactly 16 bs).andThen fun a rest => done (.ipv6 a) rest
  else if atyp = socksAtypFqdn then
    (takeField .malformed bs).andThen fun name rest => done (.fqdn name) rest
  else failed .addressType bs

/-- `05`, `01`, any byte, an address of one of three types, and a port. -/
def decodeRequest (bs : Bytes) : Reading RequestFault Connect :=
  (takeByte bs).andThen fun v bs =>
    if v ≠ socksVersion then failed .malformed bs
    else (takeByte bs).andThen fun cmd bs =>
      if cmd ≠ socksCmdConnect then failed .command bs
      else (takeByte bs).andThen fun _ bs =>
        (takeByte bs).andThen fun atyp bs =>
          (takeHost atyp bs).andThen fun host bs =>
            (takePort bs).andThen fun port bs => done ⟨host, port⟩ bs

theorem port_toNat (hi lo : UInt8) :
    (hi.toUInt16 <<< 8 ||| lo.toUInt16).toNat = hi.toNat * 256 + lo.toNat := by
  have h1 := hi.toNat_lt
  have h2 := lo.toNat_lt
  rw [UInt16.toNat_or, UInt16.toNat_shiftLeft, UInt8.toNat_toUInt16, UInt8.toNat_toUInt16]
  have h3 : (8 : UInt16).toNat % 16 = 8 := rfl
  rw [h3, Nat.shiftLeft_eq, Nat.mod_eq_of_lt (by omega), Nat.mul_comm,
    ← Nat.two_pow_add_eq_or_of_lt (by omega)]

theorem port_split (port : UInt16) :
    ((port >>> 8).toUInt8.toUInt16 <<< 8 ||| port.toUInt8.toUInt16) = port := by
  refine UInt16.toNat_inj.mp ?_
  have h1 := port.toNat_lt
  have h3 : (8 : UInt16).toNat % 16 = 8 := rfl
  rw [port_toNat, UInt16.toNat_toUInt8, UInt16.toNat_toUInt8, UInt16.toNat_shiftRight, h3,
    Nat.shiftRight_eq_div_pow]
  omega

theorem port_bytes (hi lo : UInt8) :
    encodePort (hi.toUInt16 <<< 8 ||| lo.toUInt16) = [hi, lo] := by
  have h1 := hi.toNat_lt
  have h2 := lo.toNat_lt
  have h3 : (8 : UInt16).toNat % 16 = 8 := rfl
  have hhi : ((hi.toUInt16 <<< 8 ||| lo.toUInt16) >>> 8).toUInt8 = hi := by
    refine UInt8.toNat_inj.mp ?_
    rw [UInt16.toNat_toUInt8, UInt16.toNat_shiftRight, h3, port_toNat, Nat.shiftRight_eq_div_pow]
    omega
  have hlo : (hi.toUInt16 <<< 8 ||| lo.toUInt16).toUInt8 = lo := by
    refine UInt8.toNat_inj.mp ?_
    rw [UInt16.toNat_toUInt8, port_toNat]
    omega
  rw [encodePort, hhi, hlo]

theorem takePort_done {bs rest : Bytes} {port : UInt16} :
    takePort bs = done port rest ↔ bs = encodePort port ++ rest := by
  unfold takePort
  constructor
  · intro h
    obtain ⟨hi, mid, h1, h⟩ := andThen_eq_done.mp h
    obtain ⟨lo, mid', h2, h⟩ := andThen_eq_done.mp h
    rw [takeByte_done] at h1 h2
    cases h
    rw [port_bytes, h1, h2]
    rfl
  · rintro rfl
    exact congrArg (fun port => done port rest) (port_split port)

theorem takeHost_done {atyp : UInt8} {bs rest : Bytes} {host : Host} :
    takeHost atyp bs = done host rest ↔ atyp = host.type ∧ bs = host.encode ++ rest := by
  unfold takeHost
  constructor
  · intro h
    split at h
    · next ht =>
      obtain ⟨a, mid, ha, h⟩ := andThen_eq_done.mp h
      cases h
      exact ⟨ht, takeExactly_done.mp ha⟩
    · split at h
      · next ht =>
        obtain ⟨a, mid, ha, h⟩ := andThen_eq_done.mp h
        cases h
        exact ⟨ht, takeExactly_done.mp ha⟩
      · split at h
        · next ht =>
          obtain ⟨a, mid, ha, h⟩ := andThen_eq_done.mp h
          cases h
          exact ⟨ht, takeField_done.mp ha⟩
        · cases h
  · rintro ⟨rfl, rfl⟩
    cases host with
    | ipv4 a =>
      show (takeExactly 4 (a.val ++ rest)).andThen _ = _
      rw [takeExactly_done.mpr rfl, andThen_done]
    | ipv6 a =>
      show (takeExactly 16 (a.val ++ rest)).andThen _ = _
      rw [takeExactly_done.mpr rfl, andThen_done]
    | fqdn name =>
      show (takeField _ (name.encode ++ rest)).andThen _ = _
      rw [takeField_done.mpr rfl, andThen_done]

/-- An address is refused for its type, or for a name without characters. -/
theorem takeHost_failed {atyp : UInt8} {bs rest : Bytes} {e : RequestFault} :
    takeHost atyp bs = failed e rest ↔
      (e = .malformed ∧ atyp = socksAtypFqdn ∧ bs = 0 :: rest) ∨
      (e = .addressType ∧ atyp ≠ socksAtypIpv4 ∧ atyp ≠ socksAtypIpv6 ∧ atyp ≠ socksAtypFqdn ∧
        bs = rest) := by
  unfold takeHost
  constructor
  · intro h
    split at h
    · rcases andThen_eq_failed.mp h with h | ⟨a, mid, -, h⟩
      · exact absurd h takeExactly_failed
      · cases h
    · next h4 =>
      split at h
      · rcases andThen_eq_failed.mp h with h | ⟨a, mid, -, h⟩
        · exact absurd h takeExactly_failed
        · cases h
      · next h6 =>
        split at h
        · next h3 =>
          rcases andThen_eq_failed.mp h with h | ⟨a, mid, -, h⟩
          · obtain ⟨h1, h2⟩ := takeField_failed.mp h
            exact Or.inl ⟨h2, h3, h1⟩
          · cases h
        · next h3 =>
          cases h
          exact Or.inr ⟨rfl, h4, h6, h3, rfl⟩
  · rintro (⟨rfl, rfl, rfl⟩ | ⟨rfl, h4, h6, h3, rfl⟩)
    · rfl
    · rw [if_neg h4, if_neg h6, if_neg h3]

theorem decodeRequest_done {bs rest : Bytes} {m : Connect} :
    decodeRequest bs = done m rest ↔ ∃ rsv, bs = m.encode rsv ++ rest := by
  unfold decodeRequest
  constructor
  · intro h
    obtain ⟨v, b1, h1, h⟩ := andThen_eq_done.mp h
    rw [takeByte_done] at h1
    split at h
    · cases h
    next hv =>
    obtain ⟨cmd, b2, h2, h⟩ := andThen_eq_done.mp h
    rw [takeByte_done] at h2
    split at h
    · cases h
    next hcmd =>
    obtain ⟨rsv, b3, h3, h⟩ := andThen_eq_done.mp h
    obtain ⟨atyp, b4, h4, h⟩ := andThen_eq_done.mp h
    obtain ⟨host, b5, h5, h⟩ := andThen_eq_done.mp h
    obtain ⟨port, b6, h6, h⟩ := andThen_eq_done.mp h
    rw [takeByte_done] at h3 h4
    rw [takePort_done] at h6
    obtain ⟨ht, h5⟩ := takeHost_done.mp h5
    cases h
    refine ⟨rsv, ?_⟩
    rw [h1, h2, h3, h4, h5, h6, not_not.mp hv, not_not.mp hcmd, ht]
    simp [Connect.encode]
  · rintro ⟨rsv, rfl⟩
    have h5 : takeHost m.host.type (m.host.encode ++ (encodePort m.port ++ rest)) =
        done m.host (encodePort m.port ++ rest) := takeHost_done.mpr ⟨rfl, rfl⟩
    have h6 : takePort (encodePort m.port ++ rest) = done m.port rest := takePort_done.mpr rfl
    have hrun : decodeRequest (m.encode rsv ++ rest) =
        (takeHost m.host.type (m.host.encode ++ encodePort m.port ++ rest)).andThen fun host bs =>
          (takePort bs).andThen fun port bs => done ⟨host, port⟩ bs := rfl
    rw [List.append_assoc, h5, andThen_done, h6] at hrun
    exact hrun

/-- The byte a request is refused at. -/
theorem decodeRequest_failed {bs rest : Bytes} {e : RequestFault} :
    decodeRequest bs = failed e rest ↔
      (e = .malformed ∧ ((∃ v, v ≠ socksVersion ∧ bs = v :: rest) ∨
        ∃ rsv, bs = socksVersion :: socksCmdConnect :: rsv :: socksAtypFqdn :: 0 :: rest)) ∨
      (e = .command ∧ ∃ cmd, cmd ≠ socksCmdConnect ∧ bs = socksVersion :: cmd :: rest) ∨
      (e = .addressType ∧ ∃ rsv atyp, atyp ≠ socksAtypIpv4 ∧ atyp ≠ socksAtypIpv6 ∧
        atyp ≠ socksAtypFqdn ∧ bs = socksVersion :: socksCmdConnect :: rsv :: atyp :: rest) := by
  unfold decodeRequest
  constructor
  · intro h
    rcases andThen_eq_failed.mp h with h | ⟨v, b1, h1, h⟩
    · exact absurd h takeByte_failed
    rw [takeByte_done] at h1
    split at h
    · next hv =>
      cases h
      exact Or.inl ⟨rfl, Or.inl ⟨v, hv, h1⟩⟩
    next hv =>
    rcases andThen_eq_failed.mp h with h | ⟨cmd, b2, h2, h⟩
    · exact absurd h takeByte_failed
    rw [takeByte_done] at h2
    rw [not_not.mp hv] at h1
    split at h
    · next hcmd =>
      cases h
      exact Or.inr (Or.inl ⟨rfl, cmd, hcmd, by rw [h1, h2]⟩)
    next hcmd =>
    rw [not_not.mp hcmd] at h2
    rcases andThen_eq_failed.mp h with h | ⟨rsv, b3, h3, h⟩
    · exact absurd h takeByte_failed
    rcases andThen_eq_failed.mp h with h | ⟨atyp, b4, h4, h⟩
    · exact absurd h takeByte_failed
    rw [takeByte_done] at h3 h4
    rcases andThen_eq_failed.mp h with h | ⟨host, b5, h5, h⟩
    · rcases takeHost_failed.mp h with ⟨he, ht, h5⟩ | ⟨he, t4, t6, t3, h5⟩
      · exact Or.inl ⟨he, Or.inr ⟨rsv, by rw [h1, h2, h3, h4, ht, h5]⟩⟩
      · exact Or.inr (Or.inr ⟨he, rsv, atyp, t4, t6, t3, by rw [h1, h2, h3, h4, h5]⟩)
    rcases andThen_eq_failed.mp h with h | ⟨port, b6, -, h⟩
    · rcases andThen_eq_failed.mp h with h | ⟨hi, b7, -, h⟩
      · exact absurd h takeByte_failed
      rcases andThen_eq_failed.mp h with h | ⟨lo, b8, -, h⟩
      · exact absurd h takeByte_failed
      · cases h
    · cases h
  · rintro (⟨rfl, ⟨v, hv, rfl⟩ | ⟨rsv, rfl⟩⟩ | ⟨rfl, cmd, hcmd, rfl⟩ |
      ⟨rfl, rsv, atyp, t4, t6, t3, rfl⟩)
    · show (if v ≠ socksVersion then _ else _) = _
      rw [if_pos hv]
    · rfl
    · show (if cmd ≠ socksCmdConnect then _ else _) = _
      rw [if_pos hcmd]
    · show (takeHost atyp rest).andThen _ = _
      rw [takeHost_failed.mpr (Or.inr ⟨rfl, t4, t6, t3, rfl⟩), andThen_failed]

abbrev requestFeed : RequestParser × Bool → Bytes → (RequestParser × Bool) × Bytes :=
  feed requestStep requestStop

/-- The parser when `k` of the `l` bytes of an address have come into `a`. -/
def RequestParser.reading (p : RequestParser) (t l : UInt8) (a : Bytes) (k : Nat) : RequestParser where
  request := { p.request with type := t, addr := a }
  state := .dstAddr
  remaining := left l k
  read := UInt8.ofNat k

/-- The parser before the port of a request. -/
def RequestParser.beforePort (p : RequestParser) (t : UInt8) (a : Bytes) : RequestParser where
  request := { p.request with type := t, addr := a }
  state := .dstPort
  remaining := 0
  read := 0

section Address
variable {p : RequestParser} {t l : UInt8} {a : Bytes} {k : Nat}

theorem putAddr_reading (h : k + 1 ≤ l.toNat) (x : UInt8) :
    ((p.reading t l a k).putAddr x).countDown =
      if k + 1 = l.toNat then p.beforePort t (a.set k x) else p.reading t l (a.set k x) (k + 1) := by
  have hlt := l.toNat_lt
  have hk : (UInt8.ofNat k).toNat = k :=
    UInt8.toNat_ofNat_of_lt' (by simp only [UInt8.size]; omega)
  have hsucc : UInt8.ofNat k + 1 = UInt8.ofNat (k + 1) := by simp
  unfold RequestParser.reading RequestParser.beforePort RequestParser.putAddr
    RequestParser.countDown
  simp only [left_succ h, hk, hsucc]
  by_cases he : k + 1 = l.toNat
  · have h0 : left l (k + 1) = 0 := left_eq_zero.mpr (Nat.le_of_eq he.symm)
    simp only [h0, if_true, if_pos he]
  · have h0 : left l (k + 1) ≠ 0 := by rw [Ne, left_eq_zero]; omega
    simp only [h0, if_false, he]

theorem reading_fixed (ht : t = socksAtypIpv4 ∨ t = socksAtypIpv6) (x : UInt8) :
    requestStep (p.reading t l a k, false) x =
      (((p.reading t l a k).putAddr x).countDown, false) := by
  have h3 : t ≠ socksAtypFqdn := by rcases ht with rfl | rfl <;> decide
  have h1 : ¬(t = socksAtypFqdn ∧ left l k = 0) := fun h => h3 h.1
  have hs : (p.reading t l a k).state = .dstAddr := rfl
  have htype : (p.reading t l a k).request.type = t := rfl
  have hrem : (p.reading t l a k).remaining = left l k := rfl
  unfold requestStep
  simp only [hs, htype, hrem, h1, if_false]
  rcases ht with rfl | rfl
  · rw [if_pos rfl]
  · rw [if_neg (by decide), if_pos rfl]

/-- An address of fixed length. -/
theorem feed_fixed {n : Nat} (ht : t = socksAtypIpv4 ∨ t = socksAtypIpv6) (hn : l.toNat = n)
    (hpos : 0 < n) (ha : p.request.addr.length = 256) (bs : Bytes) :
    requestFeed (p.reading t l p.request.addr 0, false) bs =
      if bs.length < n then ((p.reading t l (filled p.request.addr bs) bs.length, false), [])
      else requestFeed (p.beforePort t (filled p.request.addr (bs.take n)), false) (bs.drop n) := by
  have hlt := l.toNat_lt
  subst hn
  exact feed_array requestStep requestStop (fun a k => (p.reading t l a k, false))
    (fun a => (p.beforePort t a, false)) hpos (m := p.request.addr) (by omega)
    (fun a k x hk => by
      rw [reading_fixed ht, putAddr_reading (Nat.le_of_lt hk), if_neg (Nat.ne_of_lt hk)])
    (fun a k x hk => by
      rw [reading_fixed ht, putAddr_reading (Nat.le_of_eq hk), if_pos hk])
    (fun a k _ => rfl) bs

theorem reading_fqdn (h : k + 1 ≤ l.toNat) (x : UInt8) :
    requestStep (p.reading socksAtypFqdn l a k, false) x =
      (if k + 1 = l.toNat then p.beforePort socksAtypFqdn ((a.set k x).set l.toNat 0)
        else p.reading socksAtypFqdn l (a.set k x) (k + 1), false) := by
  have hlt := l.toNat_lt
  have hrem : left l k ≠ 0 := by rw [Ne, left_eq_zero]; omega
  have hk : (UInt8.ofNat k).toNat = k :=
    UInt8.toNat_ofNat_of_lt' (by simp only [UInt8.size]; omega)
  have hk1 : (UInt8.ofNat k + 1).toNat = k + 1 := by
    rw [show UInt8.ofNat k + 1 = UInt8.ofNat (k + 1) by simp]
    exact UInt8.toNat_ofNat_of_lt' (by simp only [UInt8.size]; omega)
  have hmax : ¬k ≥ maxFqdnLen := by unfold maxFqdnLen; omega
  have hput := putAddr_reading (p := p) (t := socksAtypFqdn) (a := a) h x
  have hs : (p.reading socksAtypFqdn l a k).state = .dstAddr := rfl
  have htype : (p.reading socksAtypFqdn l a k).request.type = socksAtypFqdn := rfl
  have hr : (p.reading socksAtypFqdn l a k).remaining = left l k := rfl
  have hread : (p.reading socksAtypFqdn l a k).read = UInt8.ofNat k := rfl
  have hput' : ((p.reading socksAtypFqdn l a k).putAddr x).remaining = left l k := rfl
  unfold requestStep
  simp only [hs, htype, hr, hread, hk, hmax, hrem, hput', left_succ h, and_false, if_false]
  rw [if_neg (by decide), if_neg (by decide)]
  by_cases he : k + 1 = l.toNat
  · have h0 : left l (k + 1) = 0 := left_eq_zero.mpr (Nat.le_of_eq he.symm)
    rw [if_pos h0, if_pos he]
    unfold RequestParser.reading RequestParser.putAddr RequestParser.countDown
      RequestParser.beforePort
    simp only [left_succ h, h0, hk, hk1, if_true]
    rw [he]
  · have h0 : left l (k + 1) ≠ 0 := by rw [Ne, left_eq_zero]; omega
    rw [if_neg h0, hput, if_neg he, if_neg he]

/-- A name, and the zero byte behind it. -/
theorem feed_fqdn (hl : l ≠ 0) (ha : p.request.addr.length = 256) (bs : Bytes) :
    requestFeed (p.reading socksAtypFqdn l p.request.addr 0, false) bs =
      if bs.length < l.toNat then
        ((p.reading socksAtypFqdn l (filled p.request.addr bs) bs.length, false), [])
      else requestFeed (p.beforePort socksAtypFqdn
        ((filled p.request.addr (bs.take l.toNat)).set l.toNat 0), false) (bs.drop l.toNat) := by
  have hlt := l.toNat_lt
  exact feed_array requestStep requestStop (fun a k => (p.reading socksAtypFqdn l a k, false))
    (fun a => (p.beforePort socksAtypFqdn (a.set l.toNat 0), false))
    (toNat_pos hl) (m := p.request.addr) (by omega)
    (fun a k x hk => by rw [reading_fqdn (Nat.le_of_lt hk), if_neg (Nat.ne_of_lt hk)])
    (fun a k x hk => by rw [reading_fqdn (Nat.le_of_eq hk), if_pos hk])
    (fun a k _ => rfl) bs

end Address

/-- The address type and the union hold the host. -/
def Host.Stored (r : Socks5Request) : Host → Prop
  | .ipv4 a => r.type = socksAtypIpv4 ∧ r.ipv4 = a.val
  | .ipv6 a => r.type = socksAtypIpv6 ∧ r.ipv6 = a.val
  | .fqdn name => r.type = socksAtypFqdn ∧ Terminated r.addr name.val

/-- What the parser is to have come to, when the message reads as `r`. -/
def RequestParser.Tells (p : RequestParser) (error : Bool) (rest : Bytes) :
    Reading RequestFault Connect → Prop
  | .done m after => p.state = .done ∧ error = false ∧ rest = after ∧
      m.host.Stored p.request ∧ p.request.destPort = m.port
  | .failed .malformed after => p.state = .error ∧ error = true ∧ rest = after
  | .failed .command after => p.state = .errorUnsupportedCmd ∧ error = false ∧ rest = after
  | .failed .addressType after => p.state = .errorUnsupportedAtyp ∧ error = false ∧ rest = after
  | .more => requestIsDone p.state = false ∧ error = false ∧ rest = []

theorem requestFeed_port (p : RequestParser) {t : UInt8} {a : Bytes} (host : Host)
    (hh : host.Stored (p.beforePort t a).request) (bs : Bytes) :
    (requestFeed (p.beforePort t a, false) bs).1.1.Tells
      (requestFeed (p.beforePort t a, false) bs).1.2
      (requestFeed (p.beforePort t a, false) bs).2
      ((takePort bs).andThen fun port rest => done ⟨host, port⟩ rest) := by
  match bs with
  | [] => exact ⟨rfl, rfl, rfl⟩
  | [_] => exact ⟨rfl, rfl, rfl⟩
  | hi :: lo :: rest => exact ⟨rfl, rfl, rfl, by cases host <;> exact hh, rfl⟩

theorem requestFeed_fixed (p : RequestParser) (ha : p.request.addr.length = 256) {t l : UInt8}
    {n : Nat} (ht : t = socksAtypIpv4 ∨ t = socksAtypIpv6) (hn : l.toNat = n) (hpos : 0 < n)
    (host : Exactly n → Host)
    (hhost : ∀ a r, r.type = t → r.addr.take n = a.val → (host a).Stored r) (bs : Bytes) :
    (requestFeed (p.reading t l p.request.addr 0, false) bs).1.1.Tells
      (requestFeed (p.reading t l p.request.addr 0, false) bs).1.2
      (requestFeed (p.reading t l p.request.addr 0, false) bs).2
      (((takeExactly n bs).andThen fun a rest => done (host a) rest).andThen fun host bs =>
        (takePort bs).andThen fun port bs => done ⟨host, port⟩ bs) := by
  rw [feed_fixed ht hn hpos ha]
  unfold takeExactly
  by_cases hlen : bs.length < n
  · rw [if_pos hlen, dif_pos hlen]
    exact ⟨rfl, rfl, rfl⟩
  · rw [if_neg hlen, dif_neg hlen]
    have hl : (bs.take n).length = n := List.length_take_of_le (Nat.le_of_not_lt hlen)
    have htake := filled_take p.request.addr (bs.take n)
    rw [hl] at htake
    exact requestFeed_port p (host ⟨bs.take n, hl⟩)
      (hhost ⟨bs.take n, hl⟩ (p.beforePort t (filled p.request.addr (bs.take n))).request rfl htake)
      (bs.drop n)

theorem requestFeed_fqdn (p : RequestParser) (ha : p.request.addr.length = 256) (bs : Bytes) :
    (requestFeed ({ p with state := .atyp }, false) (socksAtypFqdn :: bs)).1.1.Tells
      (requestFeed ({ p with state := .atyp }, false) (socksAtypFqdn :: bs)).1.2
      (requestFeed ({ p with state := .atyp }, false) (socksAtypFqdn :: bs)).2
      (((takeField .malformed bs).andThen fun name rest => done (.fqdn name) rest).andThen
        fun host bs => (takePort bs).andThen fun port bs => done ⟨host, port⟩ bs) := by
  cases bs with
  | nil => exact ⟨rfl, rfl, rfl⟩
  | cons l bs =>
    by_cases hl : l = 0
    · subst hl
      exact ⟨rfl, rfl, rfl⟩
    · have hlength : requestStep ({ p with
          request := { p.request with type := socksAtypFqdn }
          state := .dstAddr, remaining := 0, read := 0 }, false) l =
          (p.reading socksAtypFqdn l p.request.addr 0, false) := by
        simp [requestStep, hl, RequestParser.reading]
      have htype : requestFeed ({ p with state := .atyp }, false) (socksAtypFqdn :: l :: bs) =
          requestFeed ({ p with
            request := { p.request with type := socksAtypFqdn }
            state := .dstAddr, remaining := 0, read := 0 }, false) (l :: bs) := rfl
      have hstep : requestFeed ({ p with state := .atyp }, false) (socksAtypFqdn :: l :: bs) =
          requestFeed (p.reading socksAtypFqdn l p.request.addr 0, false) bs := by
        rw [htype, requestFeed, feed_cons, hlength]
        rfl
      rw [hstep, feed_fqdn hl ha]
      by_cases hlen : bs.length < l.toNat
      · rw [if_pos hlen, takeField_short hl hlen]
        exact ⟨rfl, rfl, rfl⟩
      · rw [if_neg hlen]
        obtain ⟨name, hn, hnl, he⟩ := takeField_enough (e := RequestFault.malformed) hl hlen
        rw [he, ← hn, ← hnl]
        have hlt := name.property.2
        exact requestFeed_port p (.fqdn name) ⟨rfl, terminated_filled (by omega)⟩ _

theorem requestFeed_atyp (p : RequestParser) (ha : p.request.addr.length = 256) (atyp : UInt8)
    (bs : Bytes) :
    (requestFeed ({ p with state := .atyp }, false) (atyp :: bs)).1.1.Tells
      (requestFeed ({ p with state := .atyp }, false) (atyp :: bs)).1.2
      (requestFeed ({ p with state := .atyp }, false) (atyp :: bs)).2
      ((takeHost atyp bs).andThen fun host bs =>
        (takePort bs).andThen fun port bs => done ⟨host, port⟩ bs) := by
  unfold takeHost
  split
  · next h4 =>
    subst h4
    exact requestFeed_fixed p ha (Or.inl rfl) (by rfl : (4 : UInt8).toNat = 4) (by decide)
      .ipv4 (fun _ _ ht htake => ⟨ht, htake⟩) bs
  · next h4 =>
    split
    · next h6 =>
      subst h6
      exact requestFeed_fixed p ha (Or.inr rfl) (by rfl : (16 : UInt8).toNat = 16) (by decide)
        .ipv6 (fun _ _ ht htake => ⟨ht, htake⟩) bs
    · next h6 =>
      split
      · next h3 =>
        subst h3
        exact requestFeed_fqdn p ha bs
      · next h3 =>
        have hstep : requestFeed ({ p with state := .atyp }, false) (atyp :: bs) =
            (({ p with
              request := { p.request with type := atyp }
              state := .errorUnsupportedAtyp, read := 0 }, false), bs) := by
          simp [requestFeed, feed_cons, requestStep, requestStop, requestIsDone, h4, h6, h3]
        rw [hstep]
        exact ⟨rfl, rfl, rfl⟩

theorem requestFeed_tells (p : RequestParser) (ha : p.request.addr.length = 256) (bs : Bytes) :
    (requestFeed (requestParserInit p, false) bs).1.1.Tells
      (requestFeed (requestParserInit p, false) bs).1.2
      (requestFeed (requestParserInit p, false) bs).2 (decodeRequest bs) := by
  unfold requestParserInit
  match bs with
  | [] => exact ⟨rfl, rfl, rfl⟩
  | v :: bs =>
    show RequestParser.Tells _ _ _ (if v ≠ socksVersion then _ else _)
    by_cases hv : v ≠ socksVersion
    · have hstep : requestFeed ({ p with state := .version, remaining := 0, read := 0 }, false)
          (v :: bs) = (({ p with state := .error, remaining := 0, read := 0 }, true), bs) := by
        simp [requestFeed, feed_cons, requestStep, requestStop, requestIsDone, hv]
      rw [hstep, if_pos hv]
      exact ⟨rfl, rfl, rfl⟩
    rw [if_neg hv]
    obtain rfl := not_not.mp hv
    match bs with
    | [] => exact ⟨rfl, rfl, rfl⟩
    | cmd :: bs =>
      show RequestParser.Tells _ _ _ (if cmd ≠ socksCmdConnect then _ else _)
      by_cases hc : cmd ≠ socksCmdConnect
      · have hstep : requestFeed ({ p with state := .version, remaining := 0, read := 0 }, false)
            (socksVersion :: cmd :: bs) =
            (({ p with
              request := { p.request with cmd := cmd }
              state := .errorUnsupportedCmd, remaining := 0, read := 0 }, false), bs) := by
          simp [requestFeed, feed_cons, requestStep, requestStop, requestIsDone, hc]
        rw [hstep, if_pos hc]
        exact ⟨rfl, rfl, rfl⟩
      rw [if_neg hc]
      obtain rfl := not_not.mp hc
      match bs with
      | [] => exact ⟨rfl, rfl, rfl⟩
      | [_] => exact ⟨rfl, rfl, rfl⟩
      | rsv :: atyp :: bs =>
        exact requestFeed_atyp { p with
          request := { p.request with cmd := socksCmdConnect }, remaining := 0, read := 0 }
          ha atyp bs

end Socks5d
