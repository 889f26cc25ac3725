import Socks5d.AccessLog
import Socks5d.Lib.Tables
import Socks5d.Reckoning
import Socks5d.Transcript

/-! # Whether a record can be told from two

The lines of the access log against the records they are made of, and where the
bytes in a record come from. -/
namespace Socks5d
open Ctx View Lib.CString Lib.Words Lib.Tables

/-! ## Bytes that separate nothing -/

/-- No control characters. -/
def Printable (bs : Bytes) : Prop := ∀ b ∈ bs, (32 : UInt8) ≤ b

/-- Neither a tabulator nor a line feed. -/
def Tame (bs : Bytes) : Prop := 9 ∉ bs ∧ 10 ∉ bs

instance (bs : Bytes) : Decidable (Printable bs) := inferInstanceAs (Decidable (∀ _ ∈ _, _))
instance (bs : Bytes) : Decidable (Tame bs) := inferInstanceAs (Decidable (_ ∧ _))

theorem Printable.append {a b : Bytes} (ha : Printable a) (hb : Printable b) : Printable (a ++ b) :=
  fun x hx => (List.mem_append.mp hx).elim (ha x) (hb x)

theorem Printable.tame {bs : Bytes} (h : Printable bs) : Tame bs :=
  ⟨fun hm => absurd (h 9 hm) (by decide +kernel), fun hm => absurd (h 10 hm) (by decide +kernel)⟩

theorem tame_append {a b : Bytes} : Tame (a ++ b) ↔ Tame a ∧ Tame b := by
  unfold Tame
  rw [List.mem_append, List.mem_append, not_or, not_or]
  tauto

theorem mem_toDigits {b n : Nat} (hb : 1 < b) {c : Char} (h : c ∈ Nat.toDigits b n) :
    ∃ d < b, c = d.digitChar := by
  induction n using Nat.strongRecOn with
  | ind n ih =>
    rw [Nat.toDigits_eq_if hb] at h
    split at h
    · next hlt => exact ⟨n, hlt, List.mem_singleton.mp h⟩
    · next hge =>
      rcases List.mem_append.mp h with h | h
      · exact ih (n / b) (Nat.div_lt_self (by omega) hb) h
      · exact ⟨n % b, Nat.mod_lt n (by omega), List.mem_singleton.mp h⟩

theorem digits_printable {b : Nat} (hb : 1 < b) (hle : b ≤ 16) (n : Nat) :
    Printable ((Nat.toDigits b n).map fun c => c.toNat.toUInt8) := by
  have hchar : ∀ d < 16, (32 : UInt8) ≤ d.digitChar.toNat.toUInt8 := by decide +kernel
  intro x hx
  obtain ⟨c, hc, rfl⟩ := List.mem_map.mp hx
  obtain ⟨d, hd, rfl⟩ := mem_toDigits hb hc
  exact hchar d (Nat.lt_of_lt_of_le hd hle)

theorem decimal_printable (n : Nat) : Printable (decimal n) := by
  have h := digits_printable (b := 10) (by decide +kernel) (by decide +kernel) n
  have hrepr : (toString n).toList = Nat.toDigits 10 n := by simp [Nat.repr]
  unfold decimal lit
  rw [hrepr]
  exact h

theorem decimalInt_printable (n : Int) : Printable (decimalInt n) := by
  have hrepr : toString n = if 0 ≤ n then toString n.toNat else "-" ++ toString (-n).toNat :=
    Int.repr_eq_if
  unfold decimalInt
  rw [hrepr]
  split
  · exact decimal_printable _
  · have happ : lit ("-" ++ toString (-n).toNat) = lit "-" ++ decimal (-n).toNat := by
      simp [lit, decimal]
    rw [happ]
    exact Printable.append (by decide +kernel) (decimal_printable _)

theorem intercalate_printable {s : Bytes} {ls : List Bytes} (hs : Printable s)
    (hl : ∀ l ∈ ls, Printable l) : Printable (s.intercalate ls) := fun x hx => by
  rcases mem_intercalate hx with hx | ⟨l, hm, hx⟩
  · exact hs x hx
  · exact hl l hm x hx

theorem inetNtop4_printable (a : Bytes) : Printable (inetNtop4 a) := by
  refine intercalate_printable (by decide +kernel) fun l hl => ?_
  obtain ⟨i, -, rfl⟩ := List.mem_map.mp hl
  exact decimal_printable _

theorem inetNtop6_printable (a : Bytes) : Printable (inetNtop6 a) := by
  have hhex : ∀ n, Printable (hexDigits n) := digits_printable (by decide +kernel) (Nat.le_refl 16)
  unfold inetNtop6
  extract_lets g z mapped tail part groups
  have hpart : ∀ lo hi, ∀ l ∈ part lo hi, Printable l := fun lo hi l hl => by
    obtain ⟨i, -, rfl⟩ := List.mem_map.mp hl
    exact hhex _
  have hgroups : ∀ lo hi, ∀ l ∈ groups lo hi, Printable l := fun lo hi l hl => by
    simp only [groups] at hl
    split at hl
    · rcases List.mem_append.mp hl with hl | hl
      · exact hpart _ _ l hl
      · rw [List.mem_singleton.mp hl]
        exact inetNtop4_printable _
    · exact hpart _ _ l hl
  have hjoin : ∀ lo hi, Printable ([58].intercalate (groups lo hi)) := fun lo hi =>
    intercalate_printable (by decide +kernel) (hgroups lo hi)
  split
  · exact hjoin 0 8
  · exact ((hjoin _ _).append (by decide +kernel)).append (hjoin _ _)

theorem iso8601_printable (t : Int) : Printable (iso8601 t) := by
  have htwo : ∀ n, Printable (twoDigits n) := fun n => by
    unfold twoDigits
    split
    · exact Printable.append (by decide +kernel) (decimalInt_printable n)
    · exact Printable.append (by decide +kernel) (decimalInt_printable n)
  have hlit : Printable (lit "-") ∧ Printable (lit "T") ∧ Printable (lit ":") ∧ Printable (lit "Z") := by
    decide +kernel
  obtain ⟨hdash, ht, hcolon, hz⟩ := hlit
  exact ((((((((((((decimalInt_printable _).append hdash).append (htwo _)).append hdash).append
    (htwo _)).append ht).append (htwo _)).append hcolon).append (htwo _)).append hcolon).append
    (htwo _)).append hz)

/-! ## The fields of a record -/

namespace LogRecord

theorem bytes_printable (r : LogRecord) : Printable r.bytes.1 ∧ Printable r.bytes.2 := by
  cases r with
  | closed _ _ _ _ c2o o2c => exact ⟨decimal_printable c2o.toNat, decimal_printable o2c.toNat⟩
  | opened | failed =>
    have hdash : Printable (lit "-") := by decide +kernel
    exact ⟨hdash, hdash⟩

theorem event_printable (r : LogRecord) : Printable r.event := by
  cases r with
  | opened =>
    have hopen : Printable (lit "OPEN") := by decide +kernel
    exact hopen
  | closed =>
    have hclose : Printable (lit "CLOSE") := by decide +kernel
    exact hclose
  | failed _ _ _ _ reason =>
    refine Printable.append (by decide +kernel) ?_
    cases reason with
    | none => decide +kernel
    | some r => cases r <;> decide +kernel

/-- Only the user and the destination can spoil a line. -/
theorem fields_tame (r : LogRecord) : (∀ f ∈ r.fields, 9 ∉ f ∧ 10 ∉ f) ↔
    Tame r.dest ∧ ∀ user, r.user = some user → Tame user := by
  have hport : Tame (lit ":" ++ decimal r.port.toNat) :=
    (Printable.append (by decide +kernel) (decimal_printable _)).tame
  have huser : Tame (r.user.getD (lit "-")) ↔ ∀ user, r.user = some user → Tame user := by
    cases r.user with
    | none => exact ⟨fun _ _ h => (by cases h), fun _ => by decide +kernel⟩
    | some user => exact ⟨fun h _ he => Option.some.inj he ▸ h, fun h => h user rfl⟩
  have hdest : Tame (r.dest ++ lit ":" ++ decimal r.port.toNat) ↔ Tame r.dest := by
    rw [List.append_assoc, tame_append]
    exact and_iff_left hport
  show (∀ f ∈ r.fields, Tame f) ↔ _
  rw [← huser, ← hdest, fields]
  simp only [List.forall_mem_cons]
  have hnow := (iso8601_printable r.now).tame
  have hsent := (bytes_printable r).1.tame
  have hback := (bytes_printable r).2.tame
  have hevent := (event_printable r).tame
  constructor
  · rintro ⟨-, hu, hd, -⟩
    exact ⟨hd, hu⟩
  · rintro ⟨hd, hu⟩
    exact ⟨hnow, hu, hd, hsent, hback, hevent, fun _ h => by cases h⟩

/-- A line reads back as its six fields when neither of the two spoils it. -/
theorem cells_text {r : LogRecord} {text : Bytes} (h : r.text = some text) :
    cells 9 10 text = [r.fields, [[]]] ↔ Tame r.dest ∧ ∀ user, r.user = some user → Tame user := by
  rw [text_line h, cells_line (by simp [fields]) (by decide +kernel)]
  exact r.fields_tame

end LogRecord

/-! ## Where the two come from -/

/-- A record names the destination and the user of its session. -/
def View.Names (v : View) (r : LogRecord) : Prop :=
  v.dest = some (r.dest, r.port) ∧ r.user = v.logUser

theorem Reached.names {strict : Prop} {v : View} (h : Reached strict v) {r : LogRecord}
    (hr : r ∈ records v.hist) : v.Names r := by
  rcases h.relayed with hb | ⟨u, t, hu, hrel⟩
  · rw [hb.unlogged] at hr
    cases hr
  · obtain ⟨-, hdest, huser⟩ := hrel.told
    have hname : v.logUser = u.logUser := by
      unfold View.logUser
      rw [huser]
    rw [hrel.records] at hr
    cases hd : u.dest with
    | none =>
      rw [hd] at hr
      cases hr
    | some d =>
      rw [hd] at hr
      cases List.mem_singleton.mp hr
      exact ⟨hdest.trans hd, hname.symm⟩

/-- The last record of a session is like the others. -/
theorem Closed.names {τ : Terms} {e : Ended} (h : Closed τ e) {r : LogRecord}
    (hr : r ∈ records e.s.hist) : e.view.Names r := by
  obtain ⟨u, why, t, reason, hu, he, hv⟩ := h
  have hrec : records e.view.hist = records u.hist ++ (u.lastRecord t reason).toList := by
    have hlast : records [.released] = [] := rfl
    rw [hv, filed_hist, records_append, records_append, records_append, he.records, records_logged,
      hlast, List.append_nil, List.nil_append]
  have hr : r ∈ records e.view.hist := hr
  have hnames : e.view.Names r ↔ u.Names r := by rw [hv]; rfl
  rw [hrec, List.mem_append] at hr
  rw [hnames]
  rcases hr with hr | hr
  · exact hu.names hr
  · obtain ⟨d, hd, hr⟩ := Option.map_eq_some_iff.mp (Option.mem_toList.mp hr)
    refine ⟨?_, ?_⟩
    · rw [← hr, hd]
      split <;> rfl
    · rw [← hr]
      split <;> rfl

/-- Every record of the log was left by a session. -/
theorem Orderly.names {τ : Terms} {ρ : Roster} {w : World} (h : Orderly τ ρ w) {log : AccessLog}
    (hl : w.g.accessLog = some log) {r : LogRecord} (hr : r ∈ log) :
    ∃ v, w.Session v ∧ r ∈ records v.hist ∧ v.Names r := by
  obtain ⟨m, log', -, hlog, hacc⟩ := h.inv.ledgers.accounts
  cases hl.symm.trans hlog
  obtain ⟨hist, hhist, hmem⟩ := List.mem_flatMap.mp (hacc.log.all.mem_iff.mp hr)
  rcases List.mem_append.mp hhist with hhist | hhist
  · obtain ⟨p, hp, rfl⟩ := List.mem_map.mp hhist
    exact ⟨_, .live (h.inv.serves_iff.mpr hp), hmem, (h.inv.reached p hp).names hmem⟩
  · obtain ⟨e, he, rfl⟩ := List.mem_map.mp hhist
    exact ⟨_, .ended he, hmem, (h.inv.ended e he).names hmem⟩

/-- What a client asks for can stand in a line of the log. -/
def Host.Tame : Host → Prop
  | .fqdn name => Socks5d.Tame (cstr name.val)
  | _ => True

theorem Host.tame_text (host : Host) : Socks5d.Tame host.text ↔ host.Tame := by
  cases host with
  | ipv4 a => exact iff_true_intro (inetNtop4_printable a.val).tame
  | ipv6 a => exact iff_true_intro (inetNtop6_printable a.val).tame
  | fqdn name => exact Iff.rfl

/-- A session left the record; its client had asked for `m`, behind the messages
that made it `user`. -/
structure View.Left (v : View) (r : LogRecord) (user : Bytes) (m : Connect) : Prop where
  recorded : r ∈ records v.hist
  asked : ∃ ns got rsv rest, Course ns got user ∧ v.Told ns user ∧
    v.cl.rx = got ++ Connect.encode rsv m ++ rest
  named : r.dest = m.host.text ∧ r.port = m.port ∧ r.user = if user = [] then none else some user

theorem Judged.plain {us : Option Users} {auth user : Bytes} {status : UInt8}
    (h : Judged us auth status user) : (0 : UInt8) ∉ user := by
  obtain ⟨c, -, hj⟩ := h
  split at hj
  · rw [hj.2]
    exact zero_notMem_cstr _
  · rw [hj.2]
    exact List.not_mem_nil

theorem Course.plain {ns : List Obs} {got user : Bytes} (h : Course ns got user) :
    (0 : UInt8) ∉ user := by
  cases h with
  | silent | chosen => exact List.not_mem_nil
  | judged _ hj => exact hj.plain
  | replied r hc =>
    cases hc with
    | anyone => exact List.not_mem_nil
    | known _ hj => exact hj.plain

theorem Orderly.left {τ : Terms} {ρ : Roster} {w : World} (h : Orderly τ ρ w) {log : AccessLog}
    (hl : w.g.accessLog = some log) {r : LogRecord} (hr : r ∈ log) :
    ∃ v user m, w.Session v ∧ v.Left r user m := by
  obtain ⟨v, hs, hrec, hdest, huser⟩ := h.names hl hr
  obtain ⟨ns, got, user, hc, ht, hw⟩ := (h.script hs).course
  obtain ⟨rsv, m, rest, hrx, hd⟩ := hw _ hdest
  refine ⟨v, user, m, hs, hrec, ⟨ns, got, rsv, rest, hc, ht, hrx⟩, congrArg Prod.fst hd,
    congrArg Prod.snd hd, ?_⟩
  rw [huser, View.logUser, ht.user]
  have hplain := hc.plain
  cases user with
  | nil => rfl
  | cons x xs =>
    have hx : x ≠ 0 := fun h0 => hplain (h0 ▸ List.mem_cons_self)
    rw [List.headD_cons, if_pos hx, if_neg (List.cons_ne_nil x xs)]

/-- A record's line reads back as its six fields as long as neither the name in
the request nor the user's holds a separator, and only then. -/
theorem lines_unforged (b : Boot) (is : List Input) (log : AccessLog)
    (hl : (b.start.run is).g.accessLog = some log) (r : LogRecord) (hr : r ∈ log) (text : Bytes)
    (ht : r.text = some text) :
    ∃ v user m, (b.start.run is).Session v ∧ v.Left r user m ∧
      (cells 9 10 text = [r.fields, [[]]] ↔ m.host.Tame ∧ Tame user) := by
  obtain ⟨ρ, h⟩ := b.orderly is
  obtain ⟨v, user, m, hs, hleft⟩ := h.left hl hr
  obtain ⟨hdest, -, huser⟩ := hleft.named
  refine ⟨v, user, m, hs, hleft, ?_⟩
  have hname : (∀ u, r.user = some u → Tame u) ↔ Tame user := by
    rw [huser]
    split
    · next he =>
      rw [he]
      exact ⟨fun _ => by decide +kernel, fun _ _ hu => by cases hu⟩
    · exact ⟨fun hu => hu user rfl, fun hu _ he => Option.some.inj he ▸ hu⟩
  rw [r.cells_text ht, hname, hdest, m.host.tame_text]

theorem lines_unforged_sample : ∃ v user m, (Boot.open.start.run Input.tunnel).Session v ∧
    v.Left (.opened 0 none (lit "127.0.0.1") 80) user m ∧
    (cells 9 10 (lit "1970-01-01T00:00:00Z\t-\t127.0.0.1:80\t-\t-\tOPEN\n") =
      [(LogRecord.opened 0 none (lit "127.0.0.1") 80).fields, [[]]] ↔ m.host.Tame ∧ Tame user) :=
  lines_unforged Boot.open Input.tunnel [.opened 0 none (lit "127.0.0.1") 80] (by decide +kernel) _
    List.mem_cons_self _ (by decide +kernel)

/-- A client asks for a host whose name holds a line feed, and it is not found. -/
def Input.forged : List Input :=
  Input.round 1 0 [] ++ Input.round 2 2 [5, 1, 0, 5, 1, 0, 3, 3, 120, 10, 121, 0, 80] ++
    [{ event := .dnsTake }, { event := .dnsResolve [] }, { event := .dnsNotify true }] ++
    List.replicate 16 (.turn [2] [] 4096)

/-- The log has one record, and two lines. -/
theorem forged_line : (Boot.open.start.run Input.forged).g.accessLog =
      some [.failed 0 none [120, 10, 121] 80 (some .dnsResolutionFailed)] ∧
    (LogRecord.failed 0 none [120, 10, 121] 80 (some .dnsResolutionFailed)).text.map (cells 9 10) =
      some [[lit "1970-01-01T00:00:00Z", lit "-", lit "x"],
        [lit "y:80", lit "-", lit "-", lit "FAIL: dns resolution failed"], [[]]] := by
  decide +kernel

end Socks5d
