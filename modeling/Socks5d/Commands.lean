import Socks5d.Segments
import Socks5d.Client

/-! # One command for each request

A line is taken for a request by its words. An authenticated session carries the
request out on what is shared, and answers it. -/
namespace Socks5d
open Ctx Mng Lib.CString Lib.Words Lib.Lines

/-! ## The words of a line -/

/-- What `handle_user` and `handle_config` take the words of a command for. -/
def settingOf (cmd : Bytes) : List Bytes → Option Request
  | [action] => if cmd = lit "CONFIG" ∧ action = lit "GET" then some .configGet else none
  | [action, a] => if cmd = lit "USER" ∧ action = lit "DELETE" then some (.userDelete a) else none
  | [action, a, b] =>
    if cmd = lit "USER" ∧ action = lit "SET" then some (.userSet a b)
    else if cmd = lit "CONFIG" ∧ action = lit "SET" then some (.configSet a b)
    else none
  | _ => none

/-- What `handle_line` takes a line for, if it is a request. Words after `STATS`
and `USERS` are not looked at. -/
def understood (line : Bytes) : Option Request :=
  match words isspace (cstr line) with
  | [] => none
  | cmd :: args =>
    if cmd = lit "STATS" then some .stats
    else if cmd = lit "USERS" then some .users
    else settingOf cmd args

theorem settingOf_arguments {cmd : Bytes} {args : List Bytes} {q : Request}
    (h : settingOf cmd args = some q) : ∀ a ∈ q.arguments, a ∈ args := by
  unfold settingOf at h
  split at h
  · split at h
    · cases h; exact fun a ha => by cases ha
    · cases h
  · split at h
    · cases h; exact fun a ha => List.mem_cons_of_mem _ ha
    · cases h
  · split at h
    · cases h; exact fun a ha => List.mem_cons_of_mem _ ha
    · split at h
      · cases h; exact fun a ha => List.mem_cons_of_mem _ ha
      · cases h
  · cases h

/-- The arguments of what is understood are words. -/
theorem understood_arguments {line : Bytes} {q : Request} (h : understood line = some q) :
    ∀ a ∈ q.arguments, IsWord isspace a := by
  unfold understood at h
  have hwords : ∀ w ∈ words isspace (cstr line), IsWord isspace w := fun w => mem_words
  generalize words isspace (cstr line) = ws at h hwords
  cases ws with
  | nil => cases h
  | cons cmd args =>
    dsimp only at h
    split at h
    · cases h; exact fun a ha => by cases ha
    · split at h
      · cases h; exact fun a ha => by cases ha
      · exact fun a ha => hwords a (List.mem_cons_of_mem _ (settingOf_arguments h a ha))

/-- The words of a request, and the blanks between them, hold no line end. -/
theorem Request.keywords_words (q : Request) : ∀ k ∈ q.keywords, IsWord isspace k ∧ (0 : UInt8) ∉ k := by
  have hword : ∀ w : Bytes, (!w.isEmpty && w.all fun x => !isspace x && x != 0) = true →
      IsWord isspace w ∧ (0 : UInt8) ∉ w := by
    intro w h
    obtain ⟨h1, h2⟩ := Bool.and_eq_true_iff.mp h
    have h3 : ∀ x ∈ w, isspace x = false ∧ x ≠ 0 := fun x hx => by
      simpa using List.all_eq_true.mp h2 x hx
    refine ⟨⟨fun he => ?_, fun x hx => (h3 x hx).1⟩, fun hz => (h3 0 hz).2 rfl⟩
    rw [he] at h1
    cases h1
  intro k hk
  cases q <;> simp only [Request.keywords, List.mem_cons, List.not_mem_nil, or_false] at hk
  case stats | users => rw [hk]; exact hword _ (by decide)
  all_goals rcases hk with rfl | rfl <;> exact hword _ (by decide)

namespace Request
variable {q : Request}

theorem spelled (h : ∀ a ∈ q.arguments, IsWord isspace a) :
    ∀ w ∈ q.keywords ++ q.arguments, IsWord isspace w := by
  intro w hw
  rcases List.mem_append.mp hw with hw | hw
  · exact (q.keywords_words w hw).1
  · exact h w hw

theorem line_bytes (h : ∀ a ∈ q.arguments, IsWord isspace a) {x : UInt8} (hx : x ∈ q.line) :
    x = 32 ∨ isspace x = false := by
  rcases mem_intercalate hx with hx | ⟨w, hw, hxw⟩
  · exact Or.inl (List.mem_singleton.mp hx)
  · exact Or.inr ((spelled h w hw).plain x hxw)

theorem zero_notMem_line (hz : ∀ a ∈ q.arguments, (0 : UInt8) ∉ a) : (0 : UInt8) ∉ q.line := by
  intro h0
  rcases mem_intercalate h0 with h0 | ⟨w, hw, h0⟩
  · exact absurd (List.mem_singleton.mp h0) (by decide)
  · rcases List.mem_append.mp hw with hw | hw
    · exact (q.keywords_words w hw).2 h0
    · exact hz w hw h0

/-- A request whose arguments are words is understood as what it is. -/
theorem understood_line (h : ∀ a ∈ q.arguments, IsWord isspace a)
    (hz : ∀ a ∈ q.arguments, (0 : UInt8) ∉ a) : understood q.line = some q := by
  have hwords : words isspace q.line = q.keywords ++ q.arguments :=
    words_intercalate (by decide) (spelled h)
  unfold understood
  rw [cstr_eq_self (zero_notMem_line hz), hwords]
  cases q <;> rfl

/-! ## What a request does -/

/-- `queue_response` has a limit. -/
def fitting (text : Bytes) : Bytes :=
  if text.length ≥ mngWriteSize then lit "-ERR response too large\n" else text

/-- The user store and the configuration after the request, and its response. -/
def outcome (g : Globals) : Request → Option Users × Option Config × Bytes
  | .stats =>
    (g.users, g.config, (g.metrics.map fun m => fitting (statsText m)).getD
      (lit "-ERR metrics unavailable\n"))
  | .users =>
    (g.users, g.config,
      match g.users with
      | none => lit "-ERR users unavailable\n"
      | some u =>
        if u.usersCount = 0 then lit "+OK users=-\n" else fitting (usersText u ++ [10]))
  | .userSet name pass =>
    match g.users with
    | none => (none, g.config, lit "-ERR users unavailable\n")
    | some u =>
      (some (u.usersAdd name pass).1, g.config,
        if (u.usersAdd name pass).2 then lit "+OK user set\n" else lit "-ERR user limit reached\n")
  | .userDelete name =>
    match g.users with
    | none => (none, g.config, lit "-ERR users unavailable\n")
    | some u =>
      (some (u.usersDel name).1, g.config,
        if (u.usersDel name).2 then lit "+OK user deleted\n" else lit "-ERR user not found\n")
  | .configGet =>
    (g.users, g.config,
      (g.config.map fun cfg => fitting (configText cfg)).getD (lit "-ERR config unavailable\n"))
  | .configSet keyName value =>
    match g.config with
    | none => (g.users, none, lit "-ERR config unavailable\n")
    | some cfg =>
      match parseNonnegative value with
      | none => (g.users, some cfg, lit "-ERR invalid value\n")
      | some n =>
        match configSetKey cfg keyName n with
        | none => (g.users, some cfg, lit "-ERR unknown config key\n")
        | some cfg => (g.users, some cfg, lit "+OK config set\n")

end Request

/-- From `c` to `c'` the request was carried out and answered. -/
def Carried (q : Request) (c c' : MCtx) : Prop := (c'.g.users, c'.g.config, c'.s.out) = q.outcome c.g

section Carried
variable {c c' : MCtx} {fd : Fd} {cursor : Bytes} {q : Request}

theorem Carried.fitted {text : Bytes}
    (h : q.outcome c.g = (c'.g.users, c'.g.config, Request.fitting text)) :
    Carried q c (queueResponse fd text c') := h.symm

theorem Carried.replied {text : Bytes} (h : q.outcome c.g = (c'.g.users, c'.g.config, text))
    (ht : text.length < mngWriteSize) : Carried q c (queueResponse fd text c') := by
  refine .fitted ?_
  rw [Request.fitting, if_neg (Nat.not_le.mpr ht)]
  exact h

theorem handleStats_carried : Carried .stats c (handleStats fd c) := by
  unfold handleStats
  cases hm : c.g.metrics with
  | none =>
    exact .replied (by simp only [Request.outcome, hm, Option.map_none, Option.getD_none])
      (by decide)
  | some m =>
    dsimp only
    exact .fitted (by simp only [Request.outcome, hm, Option.map_some, Option.getD_some])

theorem handleUsers_carried : Carried .users c (handleUsers fd c) := by
  unfold handleUsers
  cases hu : c.g.users with
  | none => exact .replied (by simp only [Request.outcome, hu]) (by decide)
  | some u =>
    dsimp only
    split
    · next h0 => exact .replied (by simp only [Request.outcome, hu, if_pos h0]) (by decide)
    · next h0 =>
      have hlen : (usersText u ++ [10]).length = (usersText u).length + 1 := List.length_append
      split
      · next hbig =>
        refine .replied ?_ (by decide)
        simp only [Request.outcome, hu, if_neg h0, Request.fitting, hlen, if_pos hbig]
      · next hfit =>
        show (c.g.users, c.g.config, usersText u ++ [10]) = _
        simp only [Request.outcome, hu, if_neg h0, Request.fitting, hlen, if_neg hfit]

theorem handleUser_set {name pass : Bytes} (h : words isspace cursor = [lit "SET", name, pass]) :
    Carried (.userSet name pass) c (handleUser fd cursor c) := by
  obtain ⟨c1, h1, hw1⟩ := nextToken_cons h
  obtain ⟨c2, h2, hw2⟩ := nextToken_cons hw1
  obtain ⟨c3, h3, hw3⟩ := nextToken_cons hw2
  obtain ⟨c4, h4⟩ := nextToken_nil hw3
  unfold handleUser
  simp only [h1, h2, h3, h4, if_true]
  cases hu : c.g.users with
  | none => exact .replied (by simp only [Request.outcome, hu]) (by decide)
  | some u =>
    dsimp only
    refine .replied (by simp only [Request.outcome, hu]; rfl) ?_
    split <;> decide

theorem handleUser_delete {name : Bytes} (h : words isspace cursor = [lit "DELETE", name]) :
    Carried (.userDelete name) c (handleUser fd cursor c) := by
  obtain ⟨c1, h1, hw1⟩ := nextToken_cons h
  obtain ⟨c2, h2, hw2⟩ := nextToken_cons hw1
  obtain ⟨c3, h3⟩ := nextToken_nil hw2
  have hne : lit "DELETE" ≠ lit "SET" := by decide
  unfold handleUser
  simp only [h1, h2, h3, if_true, if_neg hne]
  cases hu : c.g.users with
  | none => exact .replied (by simp only [Request.outcome, hu]) (by decide)
  | some u =>
    dsimp only
    refine .replied (by simp only [Request.outcome, hu]; rfl) ?_
    split <;> decide

theorem handleConfig_get (h : words isspace cursor = [lit "GET"]) :
    Carried .configGet c (handleConfig fd cursor c) := by
  obtain ⟨c1, h1, hw1⟩ := nextToken_cons h
  obtain ⟨c2, h2⟩ := nextToken_nil hw1
  unfold handleConfig handleConfigGet
  simp only [h1, h2, if_true]
  cases hg : c.g.config with
  | none =>
    exact .replied (by simp only [Request.outcome, hg, Option.map_none, Option.getD_none])
      (by decide)
  | some cfg =>
    dsimp only
    exact .fitted (by simp only [Request.outcome, hg, Option.map_some, Option.getD_some])

theorem handleConfig_set {keyName value : Bytes}
    (h : words isspace cursor = [lit "SET", keyName, value]) :
    Carried (.configSet keyName value) c (handleConfig fd cursor c) := by
  obtain ⟨c1, h1, hw1⟩ := nextToken_cons h
  obtain ⟨c2, h2, hw2⟩ := nextToken_cons hw1
  obtain ⟨c3, h3, hw3⟩ := nextToken_cons hw2
  obtain ⟨c4, h4⟩ := nextToken_nil hw3
  have hne : lit "SET" ≠ lit "GET" := by decide
  unfold handleConfig
  simp only [h1, h2, h3, h4, if_true, if_neg hne]
  cases hg : c.g.config with
  | none => exact .replied (by simp only [Request.outcome, hg]) (by decide)
  | some cfg =>
    cases hv : parseNonnegative value with
    | none => exact .replied (by simp only [Request.outcome, hg, hv]) (by decide)
    | some n =>
      dsimp only
      cases hk : configSetKey cfg keyName n with
      | none => exact .replied (by simp only [Request.outcome, hg, hv, hk]) (by decide)
      | some cfg' => exact .replied (by simp only [Request.outcome, hg, hv, hk]) (by decide)

theorem settingOf_carried {cmd : Bytes} {args : List Bytes} (h : settingOf cmd args = some q)
    (hargs : words isspace cursor = args) : (cmd = lit "USER" ∨ cmd = lit "CONFIG") ∧
      Carried q c (if cmd = lit "USER" then handleUser fd cursor c
        else if cmd = lit "CONFIG" then handleConfig fd cursor c
        else queueResponse fd (lit "-ERR unknown command\n") c) := by
  have hne : lit "CONFIG" ≠ lit "USER" := by decide
  unfold settingOf at h
  split at h
  · split at h
    · next he =>
      obtain ⟨rfl, rfl⟩ := he
      cases h
      rw [if_neg hne, if_pos rfl]
      exact ⟨Or.inr rfl, handleConfig_get hargs⟩
    · cases h
  · split at h
    · next he =>
      obtain ⟨rfl, rfl⟩ := he
      cases h
      rw [if_pos rfl]
      exact ⟨Or.inl rfl, handleUser_delete hargs⟩
    · cases h
  · split at h
    · next he =>
      obtain ⟨rfl, rfl⟩ := he
      cases h
      rw [if_pos rfl]
      exact ⟨Or.inl rfl, handleUser_set hargs⟩
    · split at h
      · next he =>
        obtain ⟨rfl, rfl⟩ := he
        cases h
        rw [if_neg hne, if_pos rfl]
        exact ⟨Or.inr rfl, handleConfig_set hargs⟩
      · cases h
  · cases h

/-- An authenticated session carries out the request it takes its line for. -/
theorem handleLine_carried {line : Bytes} (h : understood line = some q)
    (ha : c.s.authenticated = true) (hl : c.s.locked = false) :
    Carried q c (handleLine fd line c) := by
  have hauth := @requireAuth_granted fd _ ha hl
  obtain ⟨cursor, hcmd, hargs⟩ := nextToken_line line
  unfold understood at h
  unfold handleLine
  rw [hcmd]
  generalize words isspace (cstr line) = ws at h hargs ⊢
  cases ws with
  | nil => cases h
  | cons cmd args =>
    rw [List.tail_cons] at hargs
    dsimp only [List.head?_cons] at h ⊢
    have hother : ∀ k, cmd = k → k ≠ lit "AUTH" ∧ k ≠ lit "QUIT" →
        cmd ≠ lit "AUTH" ∧ cmd ≠ lit "QUIT" := fun k he hk => he ▸ hk
    by_cases hstats : cmd = lit "STATS"
    · rw [if_pos hstats] at h
      cases h
      obtain ⟨h1, h2⟩ := hother _ hstats (by decide)
      simp only [if_neg h1, if_neg h2, hauth, if_pos hstats]
      exact handleStats_carried
    · rw [if_neg hstats] at h
      by_cases husers : cmd = lit "USERS"
      · rw [if_pos husers] at h
        cases h
        obtain ⟨h1, h2⟩ := hother _ husers (by decide)
        simp only [if_neg h1, if_neg h2, hauth, if_neg hstats, if_pos husers]
        exact handleUsers_carried
      · rw [if_neg husers] at h
        obtain ⟨hword, hcarried⟩ := @settingOf_carried c fd cursor q cmd args h hargs
        obtain ⟨h1, h2⟩ : cmd ≠ lit "AUTH" ∧ cmd ≠ lit "QUIT" := by
          rcases hword with he | he <;> exact hother _ he (by decide)
        simp only [if_neg h1, if_neg h2, hauth, if_neg hstats, if_neg husers]
        exact hcarried

end Carried

/-! ## A session without a new line -/

namespace Mng
variable {tidy : Prop} {secret : Option Bytes} {c : MCtx} {fd : Fd}

theorem processChar_idle (h : Admin c) (hfd : fd = c.s.fd) (ch : UInt8)
    (hh : (processChar fd ch c).s.hist = c.s.hist) : (processChar fd ch c).s.out = c.s.out := by
  have h1 := h.modify (f := fun s => { s with line := [] }) rfl rfl
  have hlonger : ∀ {l : List MngObs} {o : MngObs}, l ++ [o] ≠ l := fun he => by
    have := congrArg List.length he
    simp at this
  unfold processChar at hh ⊢
  split at hh
  · next hcr => rw [if_pos hcr]
  · next hcr =>
    rw [if_neg hcr]
    split at hh
    · have hr := handleLine_replied h1.own hfd c.s.line
      have hsame : (handleLine fd c.s.line (c.modify fun s => { s with line := [] })).s.hist =
          c.s.hist := congrArg (fun t => t.2.2.2.2.1) hr.input
      refine absurd hh ?_
      show (handleLine fd c.s.line (c.modify fun s => { s with line := [] })).s.hist ++ [_] ≠ _
      rw [hsame]
      exact hlonger
    · next hlf =>
      rw [if_neg hlf]
      split at hh
      · exact absurd hh hlonger
      · next hlen => rw [if_neg hlen]; rfl

theorem processLoop_idle : ∀ (rest : Bytes) {c : MCtx}, Conversing tidy secret c →
    fd = c.s.fd → c.s.inBuf.drop c.s.inPos = rest → Waiting c.s → c.s.out = [] →
    (processLoop fd rest c).s.hist = c.s.hist → (processLoop fd rest c).s.out = []
  | [], c, _, _, _, _, ho, _ => ho
  | ch :: rest, c, h, hfd, hrest, hw, ho, hh => by
    unfold processLoop at hh ⊢
    rw [if_pos ho] at hh ⊢
    obtain ⟨h1, hw1, hdrop⟩ := processLoop_turn h hfd hrest ho hw
    have h2 := h.own.modify (f := fun s => { s with inPos := s.inPos + 1 }) rfl rfl
    have hfd1 := hfd.trans h1.good.frame.fd.symm
    obtain ⟨h3, -⟩ := processLoop_continued rest h1.conversing hfd1 hdrop hw1
    -- the history only grows, so it is the same in between
    have hmid : (processChar fd ch (c.modify fun s => { s with inPos := s.inPos + 1 })).s.hist =
        c.s.hist :=
      (h1.hist.eq_of_length_le (hh ▸ h3.hist.length_le)).symm
    exact processLoop_idle rest h1.conversing hfd1 hdrop hw1
      ((processChar_idle h2.own hfd ch hmid).trans ho) (hh.trans hmid.symm)

theorem mngProcessInput_idle (h : Conversing tidy secret c) (hfd : fd = c.s.fd)
    (hw : Waiting c.s) (ho : c.s.out = []) (hh : (mngProcessInput fd c).s.hist = c.s.hist) :
    (mngProcessInput fd c).s.out = [] := by
  have h1 := processLoop_idle _ h hfd rfl hw ho
  unfold mngProcessInput at hh ⊢
  simp only at hh ⊢
  split at hh
  · next hend => rw [if_pos hend]; exact h1 hh
  · next hend => rw [if_neg hend]; exact h1 hh

/-- A session that has nothing to say, and reads no line, has nothing to say
after it; and it reads all there is. -/
theorem mngRead_idle (h : Conversing tidy secret c) (hfd : fd = c.s.fd) (hw : Waiting c.s)
    (hopen : (mngRead fd c).s.closedWith = none) :
    (c.s.out = [] → (mngRead fd c).s.hist = c.s.hist → (mngRead fd c).s.out = []) ∧
      ((c.s.out = [] → c.s.inBuf.drop c.s.inPos = []) → (mngRead fd c).s.out = [] →
        (mngRead fd c).s.inBuf.drop (mngRead fd c).s.inPos = []) := by
  subst hfd
  unfold mngRead at hopen ⊢
  split at hopen
  · next hend =>
    rw [if_pos hend]
    obtain ⟨k, hk⟩ := h.own.sock
    unfold Ctx.recv at hopen ⊢
    rcases recv_cases hk mngInSize with ⟨o', e, he, ht⟩ | ⟨o', bs, he, -, ht⟩
    · rw [he] at hopen ⊢
      simp only at hopen ⊢
      split at hopen
      · next hagain =>
        rw [if_pos hagain]
        exact ⟨fun ho _ => ho, fun hd => hd⟩
      · exact absurd hopen (unregister_closed (h.own.touch ht).own)
    · rw [he] at hopen ⊢
      cases bs with
      | nil => exact absurd hopen (unregister_closed (h.own.touch ht).own)
      | cons b bs =>
        have hc2 := (h.received hk ht hend).conversing
        have hw2 : Waiting ({ c with os := o' }.modify fun s =>
            { s with inBuf := b :: bs, inPos := 0 }).s := ⟨hw.closing, hw.unsent, hw.sent⟩
        exact ⟨fun ho => mngProcessInput_idle hc2 rfl hw2 ho,
          fun _ => mngProcessInput_drained hc2 rfl hw2⟩
  · next hend =>
    rw [if_neg hend]
    exact ⟨fun ho => mngProcessInput_idle h rfl hw ho, fun _ => mngProcessInput_drained h rfl hw⟩

theorem mngWrite_idle (h : Conversing tidy secret c) (hfd : fd = c.s.fd) (hw : Waiting c.s)
    (hopen : (mngWrite fd c).s.closedWith = none) :
    (c.s.out = [] → (mngWrite fd c).s.hist = c.s.hist → (mngWrite fd c).s.out = []) ∧
      ((mngWrite fd c).s.out = [] →
        (mngWrite fd c).s.inBuf.drop (mngWrite fd c).s.inPos = []) := by
  obtain ⟨h1, hout, hcl, hs, hst⟩ :=
    sendLoop_continued (c.s.out.length - c.s.outSent) h hfd hw.sent (Nat.le_refl _)
  obtain ⟨-, -, hhist, -, -⟩ := sendLoop_still (c.s.out.length - c.s.outSent) fd c
  unfold mngWrite at hopen ⊢
  generalize sendLoop fd (c.s.out.length - c.s.outSent) c = r at h1 hout hs hst hhist hopen ⊢
  obtain ⟨c1, sent⟩ := r
  have hfd1 : fd = c1.s.fd := hfd.trans h1.good.frame.fd.symm
  subst hfd1
  have hc1 := h1.conversing
  have hout : c1.s.out = c.s.out := hout
  have hbusy : ∀ {n : Nat}, n < c1.s.out.length → c1.s.out = [] →
      c1.s.inBuf.drop c1.s.inPos = [] := fun hlt he => by
    rw [he] at hlt
    exact absurd hlt (Nat.not_lt_zero _)
  cases sent with
  | stopped => exact ⟨fun ho _ => hout.trans ho, hbusy (hout ▸ hst rfl)⟩
  | failed => exact absurd hopen (unregister_closed hc1.own)
  | finished =>
    simp only at hopen ⊢
    split at hopen
    · next hend =>
      rw [if_pos hend]
      have hc2 := (hc1.flushed hend).conversing
      split at hopen
      · exact absurd hopen (unregister_closed hc2.own)
      · next hclosing =>
        rw [if_neg hclosing]
        have hw2 : Waiting (c1.modify fun s => { s with out := [], outSent := 0 }).s :=
          ⟨fun hc => absurd hc hclosing, fun hne => absurd rfl hne, Nat.le_refl _⟩
        have hfd2 : c1.s.fd = (c1.modify fun s => { s with out := [], outSent := 0 }).s.fd := rfl
        have hidle := mngProcessInput_idle hc2 hfd2 hw2 rfl
        have hdrained := mngProcessInput_drained hc2 hfd2 hw2
        have hhist2 : (c1.modify fun s => { s with out := [], outSent := 0 }).s.hist = c.s.hist :=
          hhist
        rw [hhist2] at hidle
        generalize mngProcessInput c1.s.fd (c1.modify fun s => { s with out := [], outSent := 0 }) =
          c3 at hidle hdrained ⊢
        split
        · exact ⟨fun _ hh => hidle hh, hdrained⟩
        · exact ⟨fun _ hh => hidle hh, hdrained⟩
    · next hend =>
      rw [if_neg hend]
      have hlt : c1.s.outSent < c1.s.out.length := by
        rw [hout] at hend ⊢
        exact Nat.lt_of_le_of_ne hs hend
      exact ⟨fun ho _ => hout.trans ho, hbusy hlt⟩

end Mng
end Socks5d
