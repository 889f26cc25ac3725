import Socks5d.Effects

/-! # What CONFIG SET takes for a number

`parse_nonnegative` reads a C string, and `strtol` takes a sign before the
digits. The protocol has neither signs nor an end inside a token. -/
namespace Socks5d
open Ctx Mng Lib.CString Lib.Words

/-! ## The configuration as text -/

/-- The fields are C integers. -/
def Config.Ints (cfg : Config) : Prop :=
  ∀ k : ConfigKey, -2147483648 ≤ k.get cfg ∧ k.get cfg ≤ int32Max

theorem decimalInt_length {n : Int} (h : -2147483648 ≤ n ∧ n ≤ int32Max) : (decimalInt n).length ≤ 11 := by
  have hrepr : ∀ m : Nat, m < 10 ^ 10 → m.repr.toList.length ≤ 10 := by
    intro m hm
    rw [String.length_toList]
    exact (Nat.length_repr_le_iff (by decide)).mpr hm
  have htext : toString n = if 0 ≤ n then n.toNat.repr else "-" ++ (-n).toNat.repr := Int.repr_eq_if
  have hmax : (int32Max : Int) = 2147483647 := rfl
  unfold decimalInt lit
  rw [List.length_map, htext]
  split
  · exact Nat.le_succ_of_le (hrepr _ (by omega))
  · rw [String.toList_append, List.length_append]
    have h1 := hrepr (-n).toNat (by omega)
    have h2 : "-".toList.length = 1 := rfl
    omega

theorem configText_fits {cfg : Config} (h : cfg.Ints) : Request.fitting (configText cfg) = configText cfg := by
  have h1 := decimalInt_length (h .negotiationTimeout)
  have h2 := decimalInt_length (h .connectTimeout)
  have h3 := decimalInt_length (h .idleTimeout)
  have h4 := decimalInt_length (h .maxConnections)
  have hl : (lit "+OK negotiation-timeout=").length = 24 ∧ (lit " connect-timeout=").length = 17 ∧
      (lit " idle-timeout=").length = 14 ∧ (lit " max-connections=").length = 17 ∧
      (lit "\n").length = 1 := by decide +kernel
  obtain ⟨l1, l2, l3, l4, l5⟩ := hl
  refine if_neg (Nat.not_le.mpr ?_)
  unfold configText
  simp only [List.length_append, l1, l2, l3, l4, l5]
  unfold mngWriteSize
  simp only [ConfigKey.get] at h1 h2 h3 h4
  omega

theorem Config.Ints.set {cfg : Config} (h : cfg.Ints) (k : ConfigKey) {n : Nat} (hn : n ≤ int32Max) :
    (k.set cfg n).Ints := by
  have hrange : -2147483648 ≤ (n : Int) ∧ (n : Int) ≤ int32Max := by omega
  intro k'
  have hk' := h k'
  cases k <;> cases k' <;> first | exact hrange | exact hk'

theorem configSetKey_name (cfg : Config) (k : ConfigKey) (n : Nat) :
    configSetKey cfg k.name n = some (k.set cfg n) := by
  have hk : ConfigKey.ofName k.name = some k := by cases k <;> decide +kernel
  unfold configSetKey
  rw [if_neg (Int.not_lt.mpr (Int.natCast_nonneg n)), hk]
  rfl

/-! ## CONFIG SET -/

/-- `CONFIG GET`, with these values -/
def configLine (value : ConfigKey → Int) : Bytes :=
  lit "+OK negotiation-timeout=" ++ lit (toString (value .negotiationTimeout))
    ++ lit " connect-timeout=" ++ lit (toString (value .connectTimeout))
    ++ lit " idle-timeout=" ++ lit (toString (value .idleTimeout))
    ++ lit " max-connections=" ++ lit (toString (value .maxConnections)) ++ lit "\n"

/-- A value is taken, and reported from then on, if it is a `UINT`; any other is refused. -/
structure TakesUint (k : ConfigKey) (t : Bytes) (cfg : Config) (c' : MCtx) : Prop where
  taken : ∀ n, Uint t n → c'.s.out = lit "+OK config set\n" ∧ ∃ cfg', c'.g.config = some cfg' ∧
    ∀ k', k'.get cfg' = if k' = k then (n : Int) else k'.get cfg
  reported : ∀ n, Uint t n → ∀ (c₂ : MCtx) (fd₂ : Fd) (line₂ : Bytes),
    words isspace (cstr line₂) = [lit "CONFIG", lit "GET"] → c₂.s.authenticated = true →
      c₂.s.locked = false → c₂.g.config = c'.g.config →
        (handleLine fd₂ line₂ c₂).s.out = configLine fun k' => if k' = k then (n : Int) else k'.get cfg
  refused : (¬∃ n, Uint t n) → c'.s.out = lit "-ERR invalid value\n" ∧ c'.g.config = some cfg

/-- Up to its first zero byte the token is something, has no sign before a `UINT`,
and is a `UINT` only if that is the whole token. -/
structure SoundToken (t : Bytes) : Prop where
  nonempty : cstr t ≠ []
  unsigned : ¬∃ n, SignedUint (cstr t) n
  whole : (0 : UInt8) ∈ t → ¬∃ n, Uint (cstr t) n

theorem Uint.plain {t : Bytes} {n : Nat} (h : Uint t n) : (0 : UInt8) ∉ t := by
  intro h0
  have hz := (h.digits 0 h0).1
  exact absurd hz (by decide)

theorem Uint.unsigned {t : Bytes} {n n' : Nat} (h : Uint t n) : ¬SignedUint t n' := by
  rintro ⟨d, -, rfl | ⟨rfl, -⟩⟩
  · exact h.head.1 rfl
  · exact h.head.2 rfl

section ConfigSet
variable {k : ConfigKey} {t line : Bytes} {c c' : MCtx} {cfg : Config}

/-- What is left of the line in the string that `handle_line` reads. -/
theorem words_cstr (h : words isspace line = [lit "CONFIG", lit "SET", k.name, t]) :
    words isspace (cstr line) =
      [lit "CONFIG", lit "SET", k.name] ++ [cstr t].filter fun w => !w.isEmpty := by
  have hspace : ∀ x, isspace x = true → (x != 0) = true := by
    intro x hx
    rw [bne_iff_ne]
    rintro rfl
    exact absurd hx (by decide)
  have hwords : ∀ w ∈ [lit "CONFIG", lit "SET", k.name],
      (w.all (· != 0) && !w.isEmpty) = true := by
    cases k <;> decide +kernel
  have hall : ∀ w ∈ [lit "CONFIG", lit "SET", k.name], w.all (· != 0) = true := fun w hw =>
    (Bool.and_eq_true_iff.mp (hwords w hw)).1
  have hsome : ∀ w ∈ [lit "CONFIG", lit "SET", k.name], (!w.isEmpty) = true := fun w hw =>
    (Bool.and_eq_true_iff.mp (hwords w hw)).2
  have hlast : cut (· != 0) [t] = [cstr t] := by
    rw [cut]
    split
    · next ht =>
      rw [cut, cstr, List.takeWhile_eq_self_iff.mpr (List.all_eq_true.mp ht)]
    · rfl
  have hsplit : [lit "CONFIG", lit "SET", k.name, t] = [lit "CONFIG", lit "SET", k.name] ++ [t] := rfl
  show words isspace (line.takeWhile (· != 0)) = _
  rw [words_cut hspace, h, hsplit, cut_append hall, hlast, List.filter_append,
    List.filter_eq_self.mpr hsome]

theorem understood_configSet (h : words isspace line = [lit "CONFIG", lit "SET", k.name, t])
    (ht : cstr t ≠ []) : understood line = some (.configSet k.name (cstr t)) := by
  have hne : (cstr t).isEmpty = false := List.isEmpty_eq_false_iff.mpr ht
  unfold understood
  rw [words_cstr h, List.filter_cons, hne]
  show settingOf (lit "CONFIG") [lit "SET", k.name, cstr t] = _
  unfold settingOf
  dsimp only
  rw [if_neg (by decide), if_pos (by decide)]

theorem understood_configGet (h : words isspace (cstr line) = [lit "CONFIG", lit "GET"]) :
    understood line = some .configGet := by
  unfold understood
  rw [h]
  show settingOf (lit "CONFIG") [lit "GET"] = _
  unfold settingOf
  dsimp only
  rw [if_pos (by decide)]

/-- A value that begins with a zero byte is missing. -/
theorem handleLine_missing {fd : Fd} (h : words isspace (cstr line) = [lit "CONFIG", lit "SET", k.name])
    (ha : c.s.authenticated = true) (hl : c.s.locked = false) (hg : c.g.config = some cfg) :
    (handleLine fd line c).s.out = lit "-ERR usage CONFIG SET <key> <value>\n" := by
  obtain ⟨r1, h1, w1⟩ := nextToken_line line
  rw [h] at h1 w1
  obtain ⟨r2, h2, w2⟩ := nextToken_cons w1
  obtain ⟨r3, h3, w3⟩ := nextToken_cons w2
  obtain ⟨r4, h4⟩ := nextToken_nil w3
  unfold handleLine
  rw [h1]
  simp only [List.head?_cons]
  rw [if_neg (by decide), if_neg (by decide), requireAuth_granted ha hl]
  simp only
  rw [if_neg (by decide), if_neg (by decide), if_neg (by decide), if_pos trivial]
  unfold handleConfig
  rw [h2]
  simp only [hg]
  rw [if_neg (by decide), if_pos trivial, h3]
  simp only [h4]
  exact queueResponse_out _ (by decide)

theorem configSet_taken (h : Carried (.configSet k.name t) c c') (hg : c.g.config = some cfg) {n : Nat}
    (hv : parseNonnegative t = some (n : Int)) :
    c'.s.out = lit "+OK config set\n" ∧ c'.g.config = some (k.set cfg n) := by
  unfold Carried Request.outcome at h
  simp only [hg, hv, configSetKey_name, Prod.mk.injEq] at h
  exact ⟨h.2.2, h.2.1⟩

theorem configSet_refused (h : Carried (.configSet k.name t) c c') (hg : c.g.config = some cfg)
    (hv : parseNonnegative t = none) :
    c'.s.out = lit "-ERR invalid value\n" ∧ c'.g.config = some cfg := by
  unfold Carried Request.outcome at h
  simp only [hg, hv, Prod.mk.injEq] at h
  exact ⟨h.2.2, h.2.1⟩

theorem configGet_reports (h : Carried .configGet c c') (hg : c.g.config = some cfg) (hi : cfg.Ints) :
    c'.s.out = configText cfg := by
  unfold Carried Request.outcome at h
  simp only [hg, Option.map_some, Option.getD_some, Prod.mk.injEq] at h
  rw [h.2.2, configText_fits hi]

/-- The text of the configuration that a value was set in. -/
theorem configText_set (cfg : Config) (k : ConfigKey) (n : Int) :
    configText (k.set cfg n) = configLine fun k' => if k' = k then n else k'.get cfg := by
  have hvalue : (fun k' : ConfigKey => k'.get (k.set cfg n)) =
      fun k' => if k' = k then n else k'.get cfg := funext fun k' => ConfigKey.get_set cfg n k k'
  rw [← hvalue]
  rfl

/-- `CONFIG SET` takes the numbers of the protocol and nothing else, as long as the
string it reads of the token has no sign and is the token. -/
theorem config_set_uint (hline : words isspace line = [lit "CONFIG", lit "SET", k.name, t])
    (ha : c.s.authenticated = true) (hl : c.s.locked = false) (hg : c.g.config = some cfg)
    (hi : cfg.Ints) (fd : Fd) : TakesUint k t cfg (handleLine fd line c) ↔ SoundToken t := by
  have hword : cstr t ≠ [] → IsWord isspace (cstr t) := fun ht =>
    understood_arguments (understood_configSet hline ht) _ (List.mem_cons_of_mem _ List.mem_cons_self)
  have hcarried : cstr t ≠ [] → Carried (.configSet k.name (cstr t)) c (handleLine fd line c) :=
    fun ht => handleLine_carried (understood_configSet hline ht) ha hl
  constructor
  · intro htakes
    -- what the string is taken for, the token is
    have htaken : ∀ n, cstr t ≠ [] → Uint (cstr t) n ∨ SignedUint (cstr t) n → ∃ n', Uint t n' := by
      intro n ht hn
      by_contra hno
      have hv : parseNonnegative (cstr t) = some (n : Int) :=
        (parseNonnegative_iff (hword ht)).mpr ⟨n, rfl, hn⟩
      have hout := (configSet_taken (hcarried ht) hg hv).1.symm.trans (htakes.refused hno).1
      exact absurd hout (by decide)
    have hne : cstr t ≠ [] := by
      intro he
      have hno : ¬∃ n, Uint t n := by
        rintro ⟨n, hn⟩
        rw [cstr_eq_self hn.plain] at he
        exact hn.nonempty he
      have hshort : words isspace (cstr line) = [lit "CONFIG", lit "SET", k.name] := by
        rw [words_cstr hline, he]
        rfl
      have hout := (handleLine_missing hshort ha hl hg).symm.trans (htakes.refused hno).1
      exact absurd hout (by decide)
    refine ⟨hne, ?_, ?_⟩
    · rintro ⟨n, hn⟩
      obtain ⟨n', hn'⟩ := htaken n hne (Or.inr hn)
      rw [cstr_eq_self hn'.plain] at hn
      exact hn'.unsigned hn
    · rintro h0 ⟨n, hn⟩
      obtain ⟨n', hn'⟩ := htaken n hne (Or.inl hn)
      exact hn'.plain h0
  · rintro ⟨hne, hsign, hwhole⟩
    have hset : ∀ n, Uint t n → (handleLine fd line c).s.out = lit "+OK config set\n" ∧
        (handleLine fd line c).g.config = some (k.set cfg n) := by
      intro n hn
      refine configSet_taken (hcarried hne) hg ((parseNonnegative_iff (hword hne)).mpr ⟨n, rfl, ?_⟩)
      rw [cstr_eq_self hn.plain]
      exact Or.inl hn
    refine ⟨fun n hn => ⟨(hset n hn).1, _, (hset n hn).2, fun k' => ConfigKey.get_set cfg n k k'⟩,
      fun n hn c₂ fd₂ line₂ hline₂ ha₂ hl₂ hg₂ => ?_, fun hno => ?_⟩
    · rw [configGet_reports (handleLine_carried (understood_configGet hline₂) ha₂ hl₂)
        (hg₂.trans (hset n hn).2) (hi.set k hn.bound), configText_set]
    · refine configSet_refused (hcarried hne) hg ?_
      cases hv : parseNonnegative (cstr t) with
      | none => rfl
      | some v =>
        obtain ⟨n, -, hn | hn⟩ := (parseNonnegative_iff (hword hne)).mp hv
        · by_cases h0 : (0 : UInt8) ∈ t
          · exact absurd ⟨n, hn⟩ (hwhole h0)
          · rw [cstr_eq_self h0] at hn
            exact absurd ⟨n, hn⟩ hno
        · exact absurd ⟨n, hn⟩ hsign

end ConfigSet

theorem config_set_uint_leading :
    TakesUint .idleTimeout (lit "007") ⟨0, 0, 0, 0⟩ (handleLine 2 (lit "CONFIG SET idle-timeout 007")
      ((Boot.guarded.start.run Input.entrance).mngCtx 0)) := by
  have hstands : ((Boot.guarded.start.run Input.entrance).mngCtx 0).s.authenticated = true ∧
      ((Boot.guarded.start.run Input.entrance).mngCtx 0).s.locked = false ∧
      ((Boot.guarded.start.run Input.entrance).mngCtx 0).g.config = some ⟨0, 0, 0, 0⟩ := by
    decide +kernel
  have hints : Config.Ints ⟨0, 0, 0, 0⟩ := by intro k; cases k <;> decide
  have hline : words isspace (lit "CONFIG SET idle-timeout 007") =
      [lit "CONFIG", lit "SET", ConfigKey.idleTimeout.name, lit "007"] := by decide +kernel
  have hcstr : cstr (lit "007") = [48, 48, 55] := by decide +kernel
  obtain ⟨hauth, hlocked, hconfig⟩ := hstands
  refine (config_set_uint hline hauth hlocked hconfig hints 2).mpr ⟨?_, ?_, ?_⟩
  · rw [hcstr]
    exact List.cons_ne_nil _ _
  · rw [hcstr]
    rintro ⟨n, d, -, he | ⟨he, -⟩⟩ <;> cases he
  · exact fun h0 => absurd h0 (by decide)

/-- A plus sign is taken. -/
theorem config_set_signed :
    let c := handleLine 2 (lit "CONFIG SET idle-timeout +5")
      ((Boot.guarded.start.run Input.entrance).mngCtx 0)
    c.s.out = lit "+OK config set\n" ∧ c.g.config = some ⟨0, 0, 5, 0⟩ ∧
      ¬ TakesUint .idleTimeout (lit "+5") ⟨0, 0, 0, 0⟩ c := by
  have hanswer : (handleLine 2 (lit "CONFIG SET idle-timeout +5")
      ((Boot.guarded.start.run Input.entrance).mngCtx 0)).s.out = lit "+OK config set\n" ∧
      (handleLine 2 (lit "CONFIG SET idle-timeout +5")
        ((Boot.guarded.start.run Input.entrance).mngCtx 0)).g.config = some ⟨0, 0, 5, 0⟩ := by
    decide +kernel
  refine ⟨hanswer.1, hanswer.2, fun h => ?_⟩
  have hno : ¬∃ n, Uint (lit "+5") n := by
    rintro ⟨n, hn⟩
    exact absurd (hn.digits 43 (by decide)) (by decide)
  exact absurd (hanswer.1.symm.trans (h.refused hno).1) (by decide)

end Socks5d
