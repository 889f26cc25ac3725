import Socks5d.Exchange
import Socks5d.Obeying

/-! # What the client reports

A client and the session it talks to, whatever the network and the rest of the
server do in between: what the client shows is the server's answer to its command,
and an exit status of zero means that the command was carried out. -/
namespace Socks5d
open Ctx Mng Lib.CString Lib.Words Lib.Lines

/-! ## Responses fit the client's buffer -/

section Fitting
variable {fd : Fd} {c : MCtx}

theorem queueResponse_fits (text : Bytes) :
    (queueResponse fd text c).s.out.length < mngWriteSize := by
  have hout : (queueResponse fd text c).s.out =
      if text.length ≥ mngWriteSize then lit "-ERR response too large\n" else text := rfl
  rw [hout]
  split
  · decide
  · next hlen => exact Nat.lt_of_not_le hlen

theorem handleAuth_fits (cursor : Bytes) :
    (handleAuth fd cursor c).s.out.length < mngWriteSize := by
  unfold handleAuth
  dsimp only
  split
  · split
    · exact queueResponse_fits _
    · split
      · exact queueResponse_fits _
      · split
        · exact queueResponse_fits _
        · split <;> exact queueResponse_fits _
  · exact queueResponse_fits _

theorem handleUsers_fits : (handleUsers fd c).s.out.length < mngWriteSize := by
  unfold handleUsers
  split
  · exact queueResponse_fits _
  · next u _ =>
    split
    · exact queueResponse_fits _
    · split
      · exact queueResponse_fits _
      · next hlen =>
        show (usersText u ++ [10]).length < mngWriteSize
        rw [List.length_append, List.length_singleton]
        exact Nat.lt_of_not_le hlen

theorem handleUser_fits (cursor : Bytes) :
    (handleUser fd cursor c).s.out.length < mngWriteSize := by
  unfold handleUser
  dsimp only
  split
  · exact queueResponse_fits _
  · split
    · exact queueResponse_fits _
    · split
      · split <;> exact queueResponse_fits _
      · split
        · split <;> exact queueResponse_fits _
        · exact queueResponse_fits _

theorem handleConfig_fits (cursor : Bytes) :
    (handleConfig fd cursor c).s.out.length < mngWriteSize := by
  have hget : (handleConfigGet fd c).s.out.length < mngWriteSize := by
    unfold handleConfigGet
    split <;> exact queueResponse_fits _
  unfold handleConfig
  dsimp only
  split
  · exact queueResponse_fits _
  · split
    · exact queueResponse_fits _
    · split
      · split
        · exact queueResponse_fits _
        · exact hget
      · split
        · split
          · split
            · exact queueResponse_fits _
            · split <;> exact queueResponse_fits _
          · exact queueResponse_fits _
        · exact queueResponse_fits _

/-- Whatever a line is answered, the client has room for it. -/
theorem handleLine_fits (line : Bytes) : (handleLine fd line c).s.out.length < mngWriteSize := by
  unfold handleLine
  dsimp only
  split
  · exact queueResponse_fits _
  · split
    · exact handleAuth_fits _
    · split
      · split <;> exact queueResponse_fits _
      · have hra : (requireAuth fd c).2 = false →
            (requireAuth fd c).1.s.out.length < mngWriteSize := by
          unfold requireAuth
          intro hno
          split
          · exact queueResponse_fits _
          · split
            · exact queueResponse_fits _
            · next h1 h2 =>
              rw [if_neg h1, if_neg h2] at hno
              cases hno
        generalize requireAuth fd c = r at hra ⊢
        obtain ⟨c', ok⟩ := r
        cases ok with
        | false => exact hra rfl
        | true =>
          dsimp only
          split
          · unfold handleStats
            split <;> exact queueResponse_fits _
          · split
            · exact handleUsers_fits
            · split
              · exact handleUser_fits _
              · split
                · exact handleConfig_fits _
                · exact queueResponse_fits _

theorem replay_fits (c : MCtx) (evs : List (LineEvent UInt8)) :
    ∀ r ∈ (replay c evs).2, r.length < mngWriteSize := by
  induction evs using List.reverseRecOn with
  | nil => exact fun r hr => (by cases hr)
  | append_singleton evs ev ih =>
    rw [replay_snoc]
    intro r hr
    cases ev with
    | line content =>
      rcases List.mem_append.mp hr with hr | hr
      · exact ih r hr
      · rw [List.mem_singleton.mp hr]
        exact handleLine_fits content
    | tooLong =>
      rcases List.mem_append.mp hr with hr | hr
      · exact ih r hr
      · rw [List.mem_singleton.mp hr]
        decide

end Fitting

section Run
variable {b : Boot} {ρ : Roster} {w : World} {m : Ptr}

/-- What a session answers in a run, the client has room for. -/
theorem run_fits : ∀ (js : List Input) {ρ : Roster} {w : World}, Orderly b.plain ρ w →
    w.Stays m js → ∀ o ∈ ((w.run js).mngMem m).hist,
      o ∈ (w.mngMem m).hist ∨ o.response.length < mngWriteSize
  | [], _, _, _, _ => fun o ho => Or.inl ho
  | i :: js, _, w, h, hs => by
    obtain ⟨ρ', h1⟩ := h.step (h.granted_plain i)
    intro o ho
    rcases run_fits js h1.orderly hs.tail o ho with ho | ho
    · cases step_minds h hs.head hs.tail.head with
      | aside hk => exact Or.inl (hk ▸ ho)
      | served c₀ hs₀ _ hf =>
        obtain ⟨l, hl⟩ := hf.since.kept
        have hl : c₀.s.hist ++ l = ((w.step i).mngMem m).hist := hl
        rw [← hl] at ho
        rcases List.mem_append.mp ho with ho | ho
        · exact Or.inl (hs₀ ▸ ho)
        · right
          refine replay_fits c₀ (news c₀.s.hist ((w.step i).mngCtx m).s) _ ?_
          rw [← hf.since.responses]
          show o.response ∈ ((((w.step i).mngMem m).hist.drop c₀.s.hist.length).map MngObs.response)
          rw [← hl, List.drop_left]
          exact List.mem_map_of_mem ho
    · exact Or.inr ho

/-! ## The lines of the client -/

/-- `AUTH` as the server takes it. -/
def authLine (secret : Str) : Bytes := lit "AUTH " ++ dropCr (cstr secret)

theorem authLine_command (secret : Str) : command (authLine secret) = some (lit "AUTH") := by
  have hzero : (0 : UInt8) ∉ authLine secret := by
    unfold authLine
    rw [List.mem_append, not_or]
    exact ⟨by decide, fun h0 => zero_notMem_cstr secret (List.mem_filter.mp h0).1⟩
  have hsplit : authLine secret = lit "AUTH" ++ 32 :: dropCr (cstr secret) := rfl
  have hword : IsWord isspace (lit "AUTH") := ⟨by decide, by decide +kernel⟩
  rw [command, cstr_eq_self hzero, hsplit, words_append (by decide), hword.words]
  rfl

theorem authText_gathered {secret : Str} (hlf : (10 : UInt8) ∉ cstr secret)
    (hlen : (authText secret).length < commandSize) :
    gather (authText secret) = ([.line (authLine secret)], []) := by
  have hplain : (10 : UInt8) ∉ authLine secret := by
    unfold authLine
    rw [List.mem_append, not_or]
    exact ⟨by decide, fun hm => hlf (List.mem_filter.mp hm).1⟩
  have hseg : segments isCr isLf (authText secret) = [authLine secret, []] := by
    have hfilter : (authText secret).filter (fun x => !isCr x) = authLine secret ++ [10] := by
      unfold authText authLine dropCr
      rw [List.filter_append, List.filter_append]
      rfl
    unfold segments
    rw [hfilter, List.splitOnP_append_cons _ _ (by rfl), List.splitOnP_eq_singleton]
    · rfl
    · intro x hx
      exact beq_false_of_ne fun he => hplain (he ▸ hx)
  have hshort : (authLine secret).length < mngLineSize := by
    have hcr := dropCr_length_le (cstr secret)
    unfold authText at hlen
    unfold authLine
    rw [List.length_append, List.length_append, List.length_singleton] at hlen
    rw [List.length_append]
    exact Nat.lt_of_le_of_lt (Nat.add_le_add_left hcr _) (Nat.lt_of_succ_lt hlen)
  unfold gather
  rw [assemble_short]
  · unfold lines
    rw [hseg]
    rfl
  · intro l hl
    rw [hseg] at hl
    rcases List.mem_cons.mp hl with rfl | hl
    · exact hshort
    · rw [List.mem_singleton.mp hl]
      decide

theorem settingOf_other {cmd : Bytes} {args : List Bytes} (hu : cmd ≠ lit "USER")
    (hc : cmd ≠ lit "CONFIG") : settingOf cmd args = none := by
  unfold settingOf
  split
  · rw [if_neg fun h => hc h.1]
  · rw [if_neg fun h => hu h.1]
  · rw [if_neg fun h => hu h.1, if_neg fun h => hc h.1]
  · rfl

theorem understood_command {line : Bytes} {q : Request} (h : understood line = some q) :
    ∃ cmd, command line = some cmd ∧ cmd ≠ lit "AUTH" ∧ cmd ≠ lit "QUIT" := by
  unfold command
  unfold understood at h
  split at h
  · cases h
  · next cmd args hw =>
    refine ⟨cmd, by rw [hw]; rfl, ?_, ?_⟩
    · rintro rfl
      rw [if_neg (by decide), if_neg (by decide), settingOf_other (by decide) (by decide)] at h
      cases h
    · rintro rfl
      rw [if_neg (by decide), if_neg (by decide), settingOf_other (by decide) (by decide)] at h
      cases h

/-- `AUTH` lines leave what is shared alone, and judge the session. -/
theorem replay_auths (c : MCtx) (l : List MngObs)
    (hl : ∀ o ∈ l, ∃ content r, o = .command content r ∧ command content = some (lit "AUTH")) :
    (replay c (l.map MngObs.event)).1.g = c.g ∧
      (replay c (l.map MngObs.event)).1.s.standing =
        l.foldl (fun st o => match o with
          | .command line _ => judge c.g.adminSecret st line
          | .overflow _ => st) c.s.standing := by
  induction l using List.reverseRecOn with
  | nil => exact ⟨rfl, rfl⟩
  | append_singleton l o ih =>
    obtain ⟨hg, hst⟩ := ih fun o ho => hl o (List.mem_append_left _ ho)
    obtain ⟨content, r, rfl, hcmd⟩ := hl o (by simp)
    have hsplit : (l ++ [MngObs.command content r]).map MngObs.event =
        l.map MngObs.event ++ [.line content] := by rw [List.map_append]; rfl
    rw [hsplit, replay_snoc, List.foldl_append]
    generalize replay c (l.map MngObs.event) = d at hg hst
    refine ⟨?_, ?_⟩
    · show (handleLine d.1.s.fd content d.1).g = c.g
      rcases @handleLine_g d.1.s.fd d.1 content with hsame | ⟨-, hu | hu⟩
      · exact hsame.trans hg
      · rw [hcmd] at hu
        exact absurd (Option.some.inj hu) (by decide)
      · rw [hcmd] at hu
        exact absurd (Option.some.inj hu) (by decide)
    · show (handleLine d.1.s.fd content d.1).s.standing = _
      rw [handleLine_standing, hg, hst]
      rfl

/-- A request that comes after nothing but `AUTH` lines is carried out as what is
shared stood when the callback began. -/
theorem Mng.Since.carried_after {c₀ c : MCtx} {l : List MngObs} {line r : Bytes} {q : Request}
    (h : Mng.Since c₀.s.hist c₀ c) (hh : c.s.hist = c₀.s.hist ++ (l ++ [.command line r]))
    (hl : ∀ o ∈ l, ∃ content r, o = .command content r ∧ command content = some (lit "AUTH"))
    (hst : c₀.s.standing = standingOf c₀.g.adminSecret c₀.s.hist)
    (hq : understood line = some q)
    (ha : (standingOf c₀.g.adminSecret (c₀.s.hist ++ l)).authenticated = true)
    (hk : (standingOf c₀.g.adminSecret (c₀.s.hist ++ l)).locked = false) :
    (c.g.users, c.g.config, r) = q.outcome c₀.g := by
  have hdrop : c.s.hist.drop c₀.s.hist.length = l ++ [.command line r] := by
    rw [hh]
    exact List.drop_left
  have hnews : news c₀.s.hist c.s = l.map MngObs.event ++ [.line line] := by
    unfold news
    rw [hdrop, List.map_append]
    rfl
  obtain ⟨hg, hst1⟩ := replay_auths c₀ l hl
  have hstand : (replay c₀ (l.map MngObs.event)).1.s.standing =
      standingOf c₀.g.adminSecret (c₀.s.hist ++ l) := by
    rw [hst1, hst]
    exact (List.foldl_append ..).symm
  have hu := h.users
  have hc := h.config
  have hr := h.responses
  rw [hnews, replay_snoc] at hu hc hr
  rw [hdrop, List.map_append] at hr
  generalize replay c₀ (l.map MngObs.event) = d at hg hstand hu hc hr
  have hr : r = (handleLine d.1.s.fd line d.1).s.out :=
    (List.cons.inj (List.append_inj' hr rfl).2).1
  have hdone : Carried q d.1 (handleLine d.1.s.fd line d.1) :=
    handleLine_carried hq ((congrArg Standing.authenticated hstand).trans ha)
      ((congrArg Standing.locked hstand).trans hk)
  rw [hu, hc, hr, ← hg]
  exact hdone

/-- The last line of a run was answered in one step of it. -/
theorem run_comes {l : List MngObs} {o : MngObs} : ∀ (js : List Input) {ρ : Roster} {w : World},
    Orderly b.plain ρ w → w.Stays m js →
    ((w.run js).mngMem m).hist = (w.mngMem m).hist ++ (l ++ [o]) →
    ∃ pre i post l₁ l₂, js = pre ++ i :: post ∧ l = l₁ ++ l₂ ∧
      ((w.run pre).mngMem m).hist = (w.mngMem m).hist ++ l₁ ∧
      (((w.run pre).step i).mngMem m).hist = (w.mngMem m).hist ++ (l ++ [o])
  | [], _, w, _, _, hh => by
    have hlen := congrArg List.length (show (w.mngMem m).hist = _ from hh)
    simp at hlen
  | i :: js, _, w, h, hs, hh => by
    obtain ⟨ρ', h1⟩ := h.step (h.granted_plain i)
    obtain ⟨l₁, hl₁⟩ := (step_minds h hs.head hs.tail.head).heeds.hist
    have hrest := (run_heeds js h1.orderly hs.tail).hist
    have hp : l₁ <+: l ++ [o] := by
      rw [← List.prefix_append_right_inj (w.mngMem m).hist, hl₁]
      exact hh ▸ hrest
    rcases List.prefix_concat_iff.mp hp with rfl | hp
    · exact ⟨[], i, js, [], l, rfl, rfl, (List.append_nil _).symm, hl₁.symm⟩
    · obtain ⟨l₂, rfl⟩ := hp
      have hh' : (((w.step i).run js).mngMem m).hist =
          ((w.step i).mngMem m).hist ++ (l₂ ++ [o]) := by
        rw [← hl₁, List.append_assoc, ← List.append_assoc l₁]
        exact hh
      obtain ⟨pre, j, post, l₃, l₄, hjs, rfl, h2, h3⟩ := run_comes js h1.orderly hs.tail hh'
      rw [← hl₁] at h2 h3
      refine ⟨i :: pre, j, post, l₁ ++ l₃, l₄, by rw [hjs]; rfl, (List.append_assoc ..).symm, ?_, ?_⟩
      · exact h2.trans (List.append_assoc ..)
      · refine h3.trans ?_
        rw [List.append_assoc, List.append_assoc, List.append_assoc, List.append_assoc]

/-! ## The conversation -/

/-- The lines a client that gets through has sent. -/
def told (secret : Option Str) (q : Request) : List (LineEvent UInt8) :=
  secret.toList.map (fun s => .line (authLine s)) ++ [.line q.line]

theorem gather_told {argv : List Str} {input : Bytes} {r : ClientRun} {secret : Option Str}
    (h : Told argv input r secret) (hsecret : ∀ s ∈ secret, (10 : UInt8) ∉ cstr s)
    (hwords : ∀ a ∈ argv.drop 2, IsWord isspace (cstr a)) :
    ∃ q, requested argv = some q ∧ understood q.line = some q ∧
      gather r.sent = (told secret q, []) := by
  have hargs : ∀ {q : Request}, q.arguments = (argv.drop 2).map cstr →
      ∀ a ∈ q.arguments, IsWord isspace a ∧ (0 : UInt8) ∉ a := by
    intro q he a ha
    rw [he] at ha
    obtain ⟨x, hx, rfl⟩ := List.mem_map.mp ha
    exact ⟨hwords x hx, zero_notMem_cstr x⟩
  cases h with
  | plain q hq he hlen hsent _ =>
    refine ⟨q, hq, Request.understood_line (fun a ha => (hargs he a ha).1)
      fun a ha => (hargs he a ha).2, ?_⟩
    have hline : gather ([] ++ (q.line ++ [10])) = ([] ++ [.line q.line], []) :=
      Request.line_gathered (fun a ha => (hargs he a ha).1) hlen rfl
    rw [hsent]
    exact hline
  | authenticated s q hq he hlen hauth hsent _ _ _ _ =>
    refine ⟨q, hq, Request.understood_line (fun a ha => (hargs he a ha).1)
      fun a ha => (hargs he a ha).2, ?_⟩
    rw [hsent]
    exact Request.line_gathered (fun a ha => (hargs he a ha).1) hlen
      (authText_gathered (hsecret s rfl) hauth)

theorem readLine_empty : readLine responseSize [] [] = (none, []) :=
  readLine_open (fun h => by cases h) (by decide)

/-- What the client shows is the next response. -/
theorem Shown.next {input more response : Bytes} {r : ClientRun} (h : Shown input r)
    (hr : OneLine response) (hlen : response.length < responseSize)
    (hin : input <+: response ++ more) :
    r.stdout = cstr (dropCr response.dropLast) ++ [10] ∧
      r.status = some (if saysOk (dropCr response.dropLast) then 0 else 1) := by
  obtain ⟨t, rest, hread, hout, hstatus⟩ := h.read
  obtain ⟨rfl, -, -⟩ := readLine_arrived hr hlen hin hread
  exact ⟨hout, hstatus⟩

/-- Of the lines of the client only `USERS` asks for the list of the users. -/
theorem told_listed {secret : Option Str} {q : Request} {o : MngObs} {st : Standing}
    (hq : understood q.line = some q) (ho : o.event ∈ told secret q) (hl : st.Listed o) : q = .users := by
  cases o with
  | overflow r => exact hl.elim
  | command content r =>
    obtain ⟨-, -, hcmd⟩ := hl
    unfold told at ho
    rcases List.mem_append.mp ho with ho | ho
    · obtain ⟨s, -, he⟩ := List.mem_map.mp ho
      rw [← LineEvent.line.inj he, authLine_command] at hcmd
      exact absurd (Option.some.inj hcmd) (by decide)
    · rw [LineEvent.line.inj (List.mem_singleton.mp ho)] at hcmd
      unfold understood at hq
      unfold command at hcmd
      split at hq
      · cases hq
      · next cmd args hw =>
        rw [hw] at hcmd
        rw [show cmd = lit "USERS" from Option.some.inj hcmd, if_neg (by decide), if_pos rfl] at hq
        exact (Option.some.inj hq).symm

/-- The responses are read one for each line that was sent, so that the one shown
is the one to the command. -/
theorem told_answered {argv : List Str} {input : Bytes} {r : ClientRun} {secret : Option Str}
    {q : Request} {h : List MngObs} (ht : Told argv input r secret)
    (hev : h.map MngObs.event <+: told secret q)
    (hone : ∀ o ∈ h, OneLine o.response ∧ o.response.length < responseSize)
    (hin : input <+: h.flatMap MngObs.response) :
    ∃ l response, h = l ++ [.command q.line response] ∧
      l.map MngObs.event = secret.toList.map (fun s => .line (authLine s)) ∧
      r.stdout = cstr (dropCr response.dropLast) ++ [10] ∧
      r.status = some (if saysOk (dropCr response.dropLast) then 0 else 1) := by
  have hempty : ∀ {t rest : Bytes}, ¬readLine responseSize [] [] = (some t, rest) := by
    intro t rest he
    rw [readLine_empty] at he
    cases he
  -- the observation of a line is that of a command
  have hcommand : ∀ {o : MngObs} {content : Bytes}, o.event = .line content →
      o = .command content o.response := by
    intro o content he
    cases o with
    | command content' response =>
      cases he
      rfl
    | overflow response => cases he
  cases ht with
  | plain _ _ _ _ _ hr =>
    cases h with
    | nil =>
      obtain ⟨t, rest, hread, -⟩ := hr.read
      rw [List.prefix_nil.mp hin] at hread
      exact absurd hread hempty
    | cons o h =>
      obtain ⟨he, hrest⟩ := List.cons_prefix_cons.mp hev
      cases List.map_eq_nil_iff.mp (List.prefix_nil.mp hrest)
      obtain ⟨h1, h2⟩ := hone o List.mem_cons_self
      obtain ⟨hout, hstatus⟩ := hr.next h1 h2 hin
      exact ⟨[], o.response, congrArg (fun o => [o]) (hcommand he), rfl, hout, hstatus⟩
  | authenticated s _ _ _ _ _ _ t rest hread hr =>
    cases h with
    | nil =>
      rw [List.prefix_nil.mp hin] at hread
      exact absurd hread hempty
    | cons o h =>
      obtain ⟨he, hrest⟩ := List.cons_prefix_cons.mp hev
      obtain ⟨h1, h2⟩ := hone o List.mem_cons_self
      obtain ⟨-, -, hmore⟩ := readLine_arrived h1 h2 hin hread
      cases h with
      | nil =>
        obtain ⟨t', rest', hread', -⟩ := hr.read
        rw [List.prefix_nil.mp hmore] at hread'
        exact absurd hread' hempty
      | cons o' h =>
        obtain ⟨he', hrest'⟩ := List.cons_prefix_cons.mp hrest
        cases List.map_eq_nil_iff.mp (List.prefix_nil.mp hrest')
        obtain ⟨h3, h4⟩ := hone o' (by simp)
        obtain ⟨hout, hstatus⟩ := hr.next h3 h4 hmore
        exact ⟨[o], o'.response, congrArg (fun x => [o, x]) (hcommand he'),
          congrArg (fun x => [x]) he, hout, hstatus⟩

/-! ## The client and its session -/

/-- The last line of the session in the run was carried out as `q` in one step, as
the server stood then. -/
def World.Honours (w : World) (m : Ptr) (js : List Input) (q : Request) (response : Bytes) : Prop :=
  ∃ pre i post, js = pre ++ i :: post ∧
    ((w.run pre).mngMem m).hist.length < ((w.run js).mngMem m).hist.length ∧
    (((w.run pre).step i).mngMem m).hist = ((w.run js).mngMem m).hist ∧
    (((w.run pre).step i).g.users, ((w.run pre).step i).g.config, response) = q.outcome (w.run pre).g

theorem World.Stays.next {pre post : List Input} {i : Input} (h : w.Stays m (pre ++ i :: post)) :
    ((w.run pre).step i).Hosts m := by
  have hlast := h (pre ++ [i]) ⟨post, by simp⟩
  unfold World.run at hlast ⊢
  rwa [List.foldl_append] at hlast

/-- A request that came after nothing but `AUTH` lines was refused, or carried out. -/
theorem Orderly.honours (h : Orderly b.plain ρ w) {js : List Input} {q : Request}
    {l : List MngObs} {line response : Bytes} (hs : w.Stays m js)
    (hh : ((w.run js).mngMem m).hist = (w.mngMem m).hist ++ (l ++ [.command line response]))
    (hl : ∀ o ∈ l, ∃ content r, o = .command content r ∧ command content = some (lit "AUTH"))
    (hq : understood line = some q) (hr : response ≠ lit "-ERR auth required\n") :
    w.Honours m js q response := by
  obtain ⟨pre, i, post, l₁, l₂, hjs, rfl, hpre, hstep⟩ := run_comes js h hs hh
  have hprefix : pre <+: js := hjs ▸ List.prefix_append _ _
  have hhosts : ((w.run pre).step i).Hosts m := (hjs ▸ hs).next
  obtain ⟨ρ₁, h1⟩ := h.run_plain pre
  obtain ⟨ρ₂, h2⟩ := h.run_plain js
  obtain ⟨ha1, -⟩ := h1.open (hs pre hprefix)
  obtain ⟨ha2, -⟩ := h2.open (hs js (List.prefix_refl _))
  -- how the session stood when it came to the line
  have hsplit : ((w.run js).mngMem m).hist =
      (((w.run pre).mngMem m).hist ++ l₂) ++ .command line response :: [] := by
    rw [hh, hpre]
    simp only [List.append_assoc]
  have hans := ha2.vetted.answers _ _ _ hsplit
  have hauth : (standingOf b.adminSecret (((w.run pre).mngMem m).hist ++ l₂)).authenticated = true := by
    obtain ⟨cmd, hcmd, hne, hnq⟩ := understood_command hq
    by_contra hno
    exact hr (hans.refused line response cmd rfl (Bool.eq_false_iff.mpr hno) hcmd hne hnq)
  have hlocked : (standingOf b.adminSecret (((w.run pre).mngMem m).hist ++ l₂)).locked = false := by
    refine Bool.eq_false_iff.mpr fun hk => ?_
    have hclosing := standingOf_locked _ hk
    rw [hans.opened] at hclosing
    cases hclosing
  refine ⟨pre, i, post, hjs, ?_, hstep.trans hh.symm, ?_⟩
  · have hlen := congrArg List.length hsplit
    rw [List.length_append, List.length_append, List.length_singleton] at hlen
    omega
  · cases step_minds h1 (hs pre hprefix) hhosts with
    | aside hk =>
      have hlen := congrArg List.length hsplit
      rw [hh, ← hstep, hk, List.length_append, List.length_append, List.length_singleton] at hlen
      omega
    | served c₀ hs₀ hg hf =>
      have hkey : c₀.g.adminSecret = b.adminSecret :=
        (congrArg Globals.adminSecret hg).trans h1.inv.toCore.secret
      have hst : c₀.s.standing = standingOf b.adminSecret c₀.s.hist := by
        rw [hs₀]
        exact ha1.vetted.standing
      rw [← hg]
      refine hf.since.carried_after (l := l₂) ?_ (fun o ho => hl o (List.mem_append_right _ ho))
        (hkey ▸ hst) hq ?_ ?_
      · rw [hs₀]
        exact (hstep.trans hh.symm).trans (hsplit.trans (List.append_assoc ..))
      · rw [hkey, hs₀]
        exact hauth
      · rw [hkey, hs₀]
        exact hlocked

/-- What a client shows is the response of its session to the command, and if it
exits with zero, the command was carried out: whatever the calls of the client
answer, however its bytes and those of the session are cut and delayed, and
whatever the rest of the server does. -/
theorem client_reports (b : Boot) (is js : List Input) (m : Ptr) (prog : Bytes)
    (secret : Option Str) (argv : List Str) (answers : List (Except Errno Nat)) (input : Bytes)
    (hs : (b.start.run is).Stays m js) (hnew : ((b.start.run is).wire m).rx = [])
    (hrx : (((b.start.run is).run js).wire m).rx <+: (clientMain prog secret argv answers input).sent)
    (hin : input <+: (((b.start.run is).run js).wire m).tx)
    (hnames : requested argv = some .users → b.Tidy) (hsecret : ∀ s ∈ secret, (10 : UInt8) ∉ cstr s)
    (hwords : ∀ a ∈ argv.drop 2, IsWord isspace (cstr a))
    (hshow : (clientMain prog secret argv answers input).stdout ≠ []) :
    ∃ q l response, requested argv = some q ∧
      (((b.start.run is).run js).mngMem m).hist = l ++ [.command q.line response] ∧
      l.map MngObs.event = secret.toList.map (fun s => .line (authLine s)) ∧
      (clientMain prog secret argv answers input).stdout =
        cstr (dropCr response.dropLast) ++ [10] ∧
      (clientMain prog secret argv answers input).status =
        some (if saysOk (dropCr response.dropLast) then 0 else 1) ∧
      ((clientMain prog secret argv answers input).status = some 0 →
        (b.start.run is).Honours m js q response) := by
  obtain ⟨ρ, h⟩ := b.orderly is
  obtain ⟨ρ', h'⟩ := h.run_plain js
  have ht := clientMain_told hshow
  obtain ⟨q, hq, hunderstood, hgather⟩ := gather_told ht hsecret hwords
  -- the session had answered nothing yet
  have hfresh : ((b.start.run is).mngMem m).hist = [] := by
    obtain ⟨-, hf⟩ := h.open hs.head
    obtain ⟨hev, -⟩ := hf.events_extend (List.prefix_refl _)
    rw [hnew] at hev
    exact List.map_eq_nil_iff.mp (List.prefix_nil.mp hev)
  obtain ⟨ha, hf⟩ := h'.open (hs js (List.prefix_refl _))
  obtain ⟨hev, -⟩ := hf.events_extend hrx
  rw [hgather] at hev
  obtain ⟨done, -, hframing⟩ := hf
  have hone : ∀ o ∈ (((b.start.run is).run js).mngMem m).hist,
      OneLine o.response ∧ o.response.length < responseSize := by
    intro o ho
    have hline : OneLine o.response := by
      obtain ⟨pre, post, hsplit⟩ := List.append_of_mem ho
      refine (ha.vetted.answers pre o post hsplit).line.mpr fun hlisted => hnames ?_
      rw [hq, told_listed hunderstood (hev.subset (List.mem_map_of_mem ho)) hlisted]
    refine ⟨hline, ?_⟩
    rcases run_fits js h hs o ho with hold | hfit
    · rw [hfresh] at hold
      cases hold
    · exact hfit
  have htx : input <+: (((b.start.run is).run js).mngMem m).hist.flatMap MngObs.response :=
    hframing.sent ▸ hin.trans (List.prefix_append _ _)
  obtain ⟨l, response, hhist, hl, hout, hstatus⟩ := told_answered ht hev hone htx
  refine ⟨q, l, response, hq, hhist, hl, hout, hstatus, fun hzero => ?_⟩
  refine h.honours hs (l := l) (by rw [hfresh]; exact hhist) ?_ hunderstood ?_
  · intro o ho
    have he : o.event ∈ secret.toList.map fun s => LineEvent.line (authLine s) :=
      hl ▸ List.mem_map_of_mem ho
    obtain ⟨s, -, hs⟩ := List.mem_map.mp he
    cases o with
    | command content r =>
      cases hs
      exact ⟨_, r, rfl, authLine_command s⟩
    | overflow r => cases hs
  · rintro rfl
    rw [hstatus] at hzero
    exact absurd hzero (by decide)

end Run

/-- `client -a s user set ana x`, and the answers to its calls of `send`. -/
def ClientRun.sample (input : Bytes) : ClientRun :=
  clientMain (lit "client") (some (lit "s")) [lit "user", lit "set", lit "ana", lit "x"]
    [.ok 7, .ok 9, .ok 6] input

/-- The session of that client. -/
def Input.exchange : List Input :=
  Input.round 2 2 (lit "AUTH s\n") ++ Input.round 2 2 [] ++
    Input.round 2 2 (lit "USER SET ana x\n") ++ Input.round 2 2 []

theorem client_reports_set : ∃ q response,
    requested [lit "user", lit "set", lit "ana", lit "x"] = some q ∧
      (ClientRun.sample (lit "+OK authenticated\n+OK user set\n")).stdout =
        cstr (dropCr response.dropLast) ++ [10] ∧
      (Boot.guarded.start.run (Input.round 1 1 [])).Honours 0 Input.exchange q response := by
  have hwords : ∀ a ∈ [lit "ana", lit "x"], IsWord isspace (cstr a) := by
    intro a ha
    rcases List.mem_cons.mp ha with rfl | ha
    · exact ⟨by decide, by decide +kernel⟩
    · rw [List.mem_singleton.mp ha]
      exact ⟨by decide, by decide +kernel⟩
  have hwire : ((Boot.guarded.start.run (Input.round 1 1 [])).wire 0).rx = [] ∧
      (((Boot.guarded.start.run (Input.round 1 1 [])).run Input.exchange).wire 0).rx =
        lit "AUTH s\nUSER SET ana x\n" ∧
      (((Boot.guarded.start.run (Input.round 1 1 [])).run Input.exchange).wire 0).tx =
        lit "+OK authenticated\n+OK user set\n" := by
    decide +kernel
  have hrun : ClientRun.sample (lit "+OK authenticated\n+OK user set\n") =
      ⟨lit "AUTH s\nUSER SET ana x\n", lit "+OK user set\n", [], some 0⟩ := by
    decide +kernel
  obtain ⟨q, l, response, hq, -, -, hout, -, hdone⟩ :=
    client_reports Boot.guarded (Input.round 1 1 []) Input.exchange 0 (lit "client")
      (some (lit "s")) [lit "user", lit "set", lit "ana", lit "x"] [.ok 7, .ok 9, .ok 6]
      (lit "+OK authenticated\n+OK user set\n") (stays_of_takes 2 (by decide +kernel)) hwire.1
      (by
        rw [hwire.2.1]
        exact (congrArg ClientRun.sent hrun) ▸ List.prefix_refl _)
      ⟨[], by rw [hwire.2.2, List.append_nil]⟩ (fun hq => absurd hq (by decide))
      (fun s hs => by cases hs; decide) hwords
      (by
        have hshow := congrArg ClientRun.stdout hrun
        exact fun he => absurd (hshow.symm.trans he) (by decide))
  exact ⟨q, response, hq, hout, hdone (congrArg ClientRun.status hrun)⟩

end Socks5d
