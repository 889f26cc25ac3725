import Socks5d.Effects
import Socks5d.Lib.Tables

/-! # What USERS tells

The names of the store, joined by commas; `-` when there is none. Commands can
store names that hold a comma, and the name `-`. -/
namespace Socks5d
open Ctx Mng Lib.CString Lib.Words Lib.Slots

/-! ## Stores that commands make -/

/-- Some lines of some sessions have made the store of a new one. -/
inductive Ordered : Users → Prop
  | create : Ordered usersCreate
  | line {u u' : Users} {c : MCtx} {fd : Fd} {line : Bytes} : Ordered u → c.g.users = some u →
      (handleLine fd line c).g.users = some u' → Ordered u'

/-- Every name has a character. -/
structure Spelled (u : Users) : Prop where
  wf : u.Wf
  names : ∀ name ∈ keys u.table, name ≠ []

theorem Spelled.add {u : Users} (h : Spelled u) {name : Bytes} (hne : stored name ≠ []) (pass : Bytes) :
    Spelled (u.usersAdd name pass).1 := by
  refine ⟨h.wf.usersAdd name pass, fun k hk => ?_⟩
  rcases h.wf.keys_usersAdd name pass with he | he
  · exact h.names k (he ▸ hk)
  · rw [he] at hk
    rcases List.mem_append.mp hk with hk | hk
    · exact h.names k hk
    · rw [List.mem_singleton.mp hk]
      exact hne

theorem Spelled.del {u : Users} (h : Spelled u) (name : Bytes) : Spelled (u.usersDel name).1 :=
  ⟨h.wf.usersDel name, fun k hk => h.names k ((h.wf.keys_usersDel name).1 k hk)⟩

theorem Spelled.line {u u' : Users} {c : MCtx} {fd : Fd} {line : Bytes} (h : Spelled u)
    (hu : c.g.users = some u) (hu' : (handleLine fd line c).g.users = some u') : Spelled u' := by
  rcases @handleLine_cases c fd line with ⟨q, hq, hc⟩ | hquiet
  · have hargs := cstr_arguments hq
    have hwords := understood_arguments hq
    have husers : some u' = (q.outcome c.g).1 := hu'.symm.trans (congrArg Prod.fst hc)
    cases q with
    | userSet name pass =>
      simp only [Request.outcome, hu, Option.some.injEq] at husers
      rw [husers]
      refine h.add ?_ pass
      have hname : cstr name = name := hargs name List.mem_cons_self
      have hne : name ≠ [] := (hwords name List.mem_cons_self).1
      unfold stored
      rw [hname]
      intro hnil
      have hlen := congrArg List.length hnil
      rw [List.length_take, List.length_nil] at hlen
      have hpos : 0 < name.length := List.length_pos_of_ne_nil hne
      have hmax : 0 < nameLen - 1 := by decide
      omega
    | userDelete name =>
      simp only [Request.outcome, hu, Option.some.injEq] at husers
      rw [husers]
      exact h.del name
    | configSet keyName value =>
      have hsame : (Request.outcome c.g (.configSet keyName value)).1 = c.g.users := by
        unfold Request.outcome
        cases c.g.config with
        | none => rfl
        | some cfg =>
          cases hv : parseNonnegative value with
          | none => simp only [hv]
          | some n => cases hk : configSetKey cfg keyName n <;> simp only [hv, hk]
      rw [hsame, hu] at husers
      rw [Option.some.inj husers]
      exact h
    | _ =>
      rw [show u' = u from Option.some.inj (husers.trans hu)]
      exact h
  · rw [hquiet.g, hu] at hu'
    rw [← Option.some.inj hu']
    exact h

theorem Ordered.spelled {u : Users} (h : Ordered u) : Spelled u := by
  induction h with
  | create => exact ⟨Users.wf_create, fun name hn => by cases hn⟩
  | line _ hu hu' ih => exact ih.line hu hu'

/-! ## The response -/

/-- The names a response to `USERS` is read as. -/
def listed (response : Bytes) : List Bytes :=
  let text := (response.drop (lit "+OK users=").length).dropLast
  if text = [45] then [] else text.splitOn 44

/-- No name holds a comma, and the store is not that of the one name `-`. -/
def Listable (names : List Bytes) : Prop := (∀ name ∈ names, (44 : UInt8) ∉ name) ∧ names ≠ [[45]]

theorem usersText_fits {u : Users} (h : u.Wf) :
    Request.fitting (usersText u ++ [10]) = usersText u ++ [10] := by
  refine if_neg (Nat.not_le.mpr ?_)
  rw [List.length_append]
  exact usersText_length h

theorem users_response {u : Users} {c : MCtx} {fd : Fd} {line : Bytes} (h : u.Wf)
    (hq : understood line = some .users) (ha : c.s.authenticated = true) (hl : c.s.locked = false)
    (hu : c.g.users = some u) : (handleLine fd line c).s.out =
      lit "+OK users=" ++ (if keys u.table = [] then [45] else [44].intercalate (keys u.table)) ++
        [10] := by
  have hcarried := @handleLine_carried c fd _ line hq ha hl
  have hzero : u.usersCount = 0 ↔ keys u.table = [] := by
    rw [← List.length_eq_zero_iff, keys, List.length_map, h.table_length]
    rfl
  unfold Carried Request.outcome at hcarried
  simp only [hu, Prod.mk.injEq] at hcarried
  rw [hcarried.2.2]
  by_cases h0 : u.usersCount = 0
  · rw [if_pos h0, if_pos (hzero.mp h0)]
    decide +kernel
  · rw [if_neg h0, if_neg (hzero.not.mp h0), usersText_fits h, usersText, userNames_eq h]

theorem listed_response (text : Bytes) : listed (lit "+OK users=" ++ text ++ [10]) =
    if text = [45] then [] else text.splitOn 44 := by
  unfold listed
  rw [List.append_assoc, List.drop_left, List.dropLast_concat]

/-- The names are read back from the text they are told in when they are listable,
and only then. -/
theorem listed_iff {names : List Bytes} (hne : ∀ name ∈ names, name ≠ []) :
    (∀ name, name ∈ listed (lit "+OK users=" ++
      (if names = [] then [45] else [44].intercalate names) ++ [10]) ↔ name ∈ names) ↔
      Listable names := by
  rw [listed_response]
  by_cases hnil : names = []
  · subst hnil
    refine iff_of_true (fun name => ?_) ⟨fun name hn => (by cases hn), by decide⟩
    rw [if_pos rfl, if_pos rfl]
  · rw [if_neg hnil]
    by_cases hdash : [44].intercalate names = [45]
    · rw [if_pos hdash]
      constructor
      · intro h
        obtain ⟨name, hname⟩ := List.exists_mem_of_ne_nil names hnil
        cases (h name).mpr hname
      · rintro ⟨hcomma, hone⟩
        have hback := List.splitOn_intercalate 44 hcomma hnil
        rw [hdash] at hback
        exact absurd hback.symm hone
    · rw [if_neg hdash, Lib.Tables.mem_splitOn_intercalate hnil]
      refine ⟨fun h => ⟨h, ?_⟩, fun h => h.1⟩
      rintro rfl
      exact hdash rfl

/-- The response to `USERS` is read as the names in the store when they are
listable, and only then; two such stores with the same response have the same names. -/
theorem users_listed {u : Users} (h : Ordered u) {c : MCtx} {line : Bytes}
    (hq : understood line = some .users) (ha : c.s.authenticated = true) (hl : c.s.locked = false)
    (hu : c.g.users = some u) (fd : Fd) :
    ((∀ name, name ∈ listed (handleLine fd line c).s.out ↔ name ∈ keys u.table) ↔
      Listable (keys u.table)) ∧
    ∀ {u' : Users} {c' : MCtx} {line' : Bytes} (fd' : Fd), Ordered u' →
      understood line' = some .users → c'.s.authenticated = true → c'.s.locked = false →
      c'.g.users = some u' → Listable (keys u.table) → Listable (keys u'.table) →
      (handleLine fd line c).s.out = (handleLine fd' line' c').s.out →
      ∀ name, name ∈ keys u.table ↔ name ∈ keys u'.table := by
  have hs := h.spelled
  rw [users_response hs.wf hq ha hl hu]
  refine ⟨listed_iff hs.names, ?_⟩
  intro u' c' line' fd' h' hq' ha' hl' hu' hlist hlist' hsame name
  have hs' := h'.spelled
  rw [users_response hs'.wf hq' ha' hl' hu'] at hsame
  rw [← (listed_iff hs.names).mpr hlist name, hsame, (listed_iff hs'.names).mpr hlist' name]

/-- An administrator's session after some lines. -/
def Ctx.told (lines : List Bytes) : MCtx :=
  lines.foldl (fun c line => handleLine 2 line c) ((Boot.guarded.start.run Input.entrance).mngCtx 0)

theorem told_create : (Ctx.told []).g.users = some usersCreate := by decide +kernel

theorem told_line (lines : List Bytes) (line : Bytes) {u u' : Users} (ho : Ordered u)
    (h : (Ctx.told lines).g.users = some u) (h' : (Ctx.told (lines ++ [line])).g.users = some u') :
    Ordered u' := by
  unfold Ctx.told at h h'
  rw [List.foldl_append] at h'
  exact .line ho h h'

theorem users_listed_two :
    let c := Ctx.told [lit "USER SET ana x", lit "USER SET bo x"]
    ∃ u, c.g.users = some u ∧ ∀ name,
      name ∈ listed (handleLine 2 (lit "USERS") c).s.out ↔ name ∈ keys u.table := by
  obtain ⟨u₁, h₁⟩ : ∃ u, (Ctx.told [lit "USER SET ana x"]).g.users = some u :=
    Option.isSome_iff_exists.mp (by decide +kernel)
  obtain ⟨u, h⟩ : ∃ u, (Ctx.told [lit "USER SET ana x", lit "USER SET bo x"]).g.users = some u :=
    Option.isSome_iff_exists.mp (by decide +kernel)
  have hkeys : (Ctx.told [lit "USER SET ana x", lit "USER SET bo x"]).g.users.map (fun u => keys u.table) =
      some [lit "ana", lit "bo"] := by decide +kernel
  rw [h, Option.map_some, Option.some_inj] at hkeys
  refine ⟨u, h, (users_listed
    (told_line [_] _ (told_line [] _ .create told_create h₁) h₁ h) (by decide +kernel)
    (by decide +kernel) (by decide +kernel) h 2).1.mpr ?_⟩
  rw [hkeys]
  unfold Listable
  decide +kernel

/-- One name with a comma, or two names. -/
theorem users_listed_alike :
    let c := Ctx.told [lit "USER SET a,b x"]
    let c' := Ctx.told [lit "USER SET a x", lit "USER SET b x"]
    ∃ u u', c.g.users = some u ∧ c'.g.users = some u' ∧ Ordered u ∧ Ordered u' ∧
      (handleLine 2 (lit "USERS") c).s.out = (handleLine 2 (lit "USERS") c').s.out ∧
      keys u.table = [lit "a,b"] ∧ keys u'.table = [lit "a", lit "b"] := by
  obtain ⟨u, h⟩ : ∃ u, (Ctx.told [lit "USER SET a,b x"]).g.users = some u :=
    Option.isSome_iff_exists.mp (by decide +kernel)
  obtain ⟨u₁, h₁⟩ : ∃ u, (Ctx.told [lit "USER SET a x"]).g.users = some u :=
    Option.isSome_iff_exists.mp (by decide +kernel)
  obtain ⟨u', h'⟩ : ∃ u, (Ctx.told [lit "USER SET a x", lit "USER SET b x"]).g.users = some u :=
    Option.isSome_iff_exists.mp (by decide +kernel)
  have hk : (Ctx.told [lit "USER SET a,b x"]).g.users.map (fun u => keys u.table) =
      some [lit "a,b"] := by decide +kernel
  have hk' : (Ctx.told [lit "USER SET a x", lit "USER SET b x"]).g.users.map (fun u => keys u.table) =
      some [lit "a", lit "b"] := by decide +kernel
  rw [h, Option.map_some, Option.some_inj] at hk
  rw [h', Option.map_some, Option.some_inj] at hk'
  exact ⟨u, u', h, h', told_line [] _ .create told_create h,
    told_line [_] _ (told_line [] _ .create told_create h₁) h₁ h', by decide +kernel, hk, hk'⟩

end Socks5d
