import Socks5d.Admin

/-! # Who may do what on a management session

The lines a session has answered determine its flags: whether it has
authenticated, how often a secret was wrong since, and whether it is about to
close. A line that is not entitled to it neither reads nor changes what is
shared. -/
namespace Socks5d
open Ctx Lib.CString Lib.Words

def MngObs.response : MngObs → Bytes
  | .command _ r => r
  | .overflow r => r

namespace Mng

/-! ## What a line does to the flags -/

def Standing.start : Standing := ⟨false, 0, false, false⟩

/-- The secret there is to match. -/
def key (secret : Option Bytes) : Option Bytes := secret.filter fun s => s ≠ []

/-- What a line makes of the flags. -/
def judge (secret : Option Bytes) (st : Standing) (line : Bytes) : Standing :=
  match offered line with
  | some s =>
    match key secret with
    | some k =>
      if s = k then { st with authenticated := true, failures := 0 }
      else if st.failures + 1 ≥ mngMaxAuthFailures then
        { st with failures := st.failures + 1, locked := true, closing := true }
      else { st with failures := st.failures + 1 }
    | none => st
  | none => if quits line then { st with closing := true } else st

variable {fd : Fd} {c : MCtx}

section Standing
variable (fd c)

@[simp] theorem queueResponse_standing (text : Bytes) :
    (queueResponse fd text c).s.standing = c.s.standing := rfl

@[simp] theorem queueResponse_g (text : Bytes) : (queueResponse fd text c).g = c.g := rfl

@[simp] theorem handleStats_standing : (handleStats fd c).s.standing = c.s.standing := by
  unfold handleStats
  split <;> simp only [queueResponse_standing]

@[simp] theorem handleUsers_standing : (handleUsers fd c).s.standing = c.s.standing := by
  unfold handleUsers
  split
  · exact queueResponse_standing fd c _
  · split
    · exact queueResponse_standing fd c _
    · split
      · exact queueResponse_standing fd c _
      · rfl

@[simp] theorem handleUser_standing (cursor : Bytes) :
    (handleUser fd cursor c).s.standing = c.s.standing := by
  unfold handleUser
  simp only
  split
  · exact queueResponse_standing fd c _
  · split
    · exact queueResponse_standing fd c _
    · split
      · split
        · exact queueResponse_standing fd (setUsers _ c) _
        · exact queueResponse_standing fd c _
      · split
        · split
          · exact queueResponse_standing fd (setUsers _ c) _
          · exact queueResponse_standing fd c _
        · exact queueResponse_standing fd c _

@[simp] theorem handleConfig_standing (cursor : Bytes) :
    (handleConfig fd cursor c).s.standing = c.s.standing := by
  unfold handleConfig handleConfigGet
  simp only
  split
  · exact queueResponse_standing fd c _
  · split
    · exact queueResponse_standing fd c _
    · split
      · split
        · exact queueResponse_standing fd c _
        · split <;> exact queueResponse_standing fd c _
      · split
        · split
          · split
            · exact queueResponse_standing fd c _
            · split
              · exact queueResponse_standing fd c _
              · exact queueResponse_standing fd { c with g := { c.g with config := _ } } _
          · exact queueResponse_standing fd c _
        · exact queueResponse_standing fd c _

end Standing

theorem requireAuth_standing : (requireAuth fd c).1.s.standing = c.s.standing := by
  unfold requireAuth
  split
  · rfl
  · split <;> rfl

theorem requireAuth_granted (ha : c.s.authenticated = true) (hl : c.s.locked = false) :
    requireAuth fd c = (c, true) := by
  unfold requireAuth
  rw [ha, hl]
  rfl

/-- `AUTH` changes the flags by the secret that comes after it. -/
theorem handleAuth_standing {line cursor : Bytes}
    (hw : words isspace (cstr line) = lit "AUTH" :: words isspace cursor) :
    (handleAuth fd cursor c).s.standing = judge c.g.adminSecret c.s.standing line := by
  have hquit : quits line = false := by
    unfold quits
    rw [hw]
    exact decide_eq_false fun he => absurd (List.cons.inj he).1 (by decide)
  obtain ⟨r1, h1, w1⟩ := nextToken_spec cursor
  obtain ⟨r2, h2, -⟩ := nextToken_spec r1
  rw [w1] at h2
  unfold handleAuth judge offered
  rw [hw]
  simp only [h1, h2]
  generalize words isspace cursor = ws
  rcases ws with _ | ⟨secret, _ | ⟨extra, more⟩⟩
  · simp only [hquit]
    rfl
  · simp only [if_true, List.head?_cons, List.tail_cons, List.head?_nil]
    rcases hs : c.g.adminSecret with _ | k
    · rfl
    · by_cases hk : k = []
      · subst hk
        rfl
      · have hkey : key (some k) = some k := by simp [key, hk]
        rw [hkey]
        simp only [hk, if_false]
        by_cases hsk : secret = k
        · simp [hsk, MngSession.standing, Ctx.modify, queueResponse, Ctx.selectorSetInterest]
        · simp only [hsk, if_false]
          by_cases hf : c.s.authFailures + 1 ≥ mngMaxAuthFailures
          · have hf' : c.s.standing.failures + 1 ≥ mngMaxAuthFailures := hf
            rw [if_pos hf']
            exact (congrArg (fun x : MCtx => x.s.standing) (if_pos hf)).trans rfl
          · have hf' : ¬c.s.standing.failures + 1 ≥ mngMaxAuthFailures := hf
            rw [if_neg hf']
            exact (congrArg (fun x : MCtx => x.s.standing) (if_neg hf)).trans rfl
  · simp [hquit]

/-- A line changes the flags as `judge` says. -/
theorem handleLine_standing (line : Bytes) :
    (handleLine fd line c).s.standing = judge c.g.adminSecret c.s.standing line := by
  obtain ⟨cursor, htoken, hargs⟩ := nextToken_line line
  unfold handleLine
  rw [htoken]
  have hjudge : offered line = none → quits line = false →
      judge c.g.adminSecret c.s.standing line = c.s.standing := fun h1 h2 => by
    unfold judge
    rw [h1, h2]
    rfl
  cases hw : words isspace (cstr line) with
  | nil =>
    refine (hjudge ?_ ?_).symm
    · simp [offered, hw]
    · simp [quits, hw]
  | cons cmd args =>
    rw [hw, List.tail_cons] at hargs
    have hc : command line = some cmd := by rw [command, hw]; rfl
    simp only [List.head?_cons]
    by_cases hauth : cmd = lit "AUTH"
    · rw [if_pos hauth]
      exact handleAuth_standing (by rw [hw, hauth, hargs])
    · rw [if_neg hauth]
      have hoff := offered_of hc hauth
      by_cases hquit : cmd = lit "QUIT"
      · rw [if_pos hquit]
        obtain ⟨rest, he, -⟩ := nextToken_spec cursor
        rw [hargs] at he
        rw [he]
        cases args with
        | nil =>
          have hq : quits line = true := by simp [quits, hw, hquit]
          unfold judge
          rw [hoff, hq]
          rfl
        | cons extra more =>
          have hq : quits line = false := by simp [quits, hw]
          exact (hjudge hoff hq).symm
      · rw [if_neg hquit]
        have hq : quits line = false := by simp [quits, hw, hquit]
        rw [hjudge hoff hq]
        have hr := @requireAuth_standing fd c
        rcases hra : requireAuth fd c with ⟨c', ok⟩
        rw [hra] at hr
        cases ok with
        | false => exact hr
        | true =>
          simp only
          split
          · exact (handleStats_standing fd c').trans hr
          · split
            · exact (handleUsers_standing fd c').trans hr
            · split
              · exact (handleUser_standing fd c' cursor).trans hr
              · split
                · exact (handleConfig_standing fd c' cursor).trans hr
                · exact hr

/-! ## What a line is answered -/

theorem queueResponse_out (text : Bytes) (h : text.length < mngWriteSize) :
    (queueResponse fd text c).s.out = text := by
  unfold queueResponse
  simp only [if_neg (Nat.not_le.mpr h)]
  rfl

/-- Before it has authenticated, a session is only told to do so. -/
theorem handleLine_refused {line cmd : Bytes} (hc : command line = some cmd)
    (hauth : cmd ≠ lit "AUTH") (hquit : cmd ≠ lit "QUIT") (hl : c.s.locked = false)
    (ha : c.s.authenticated = false) :
    handleLine fd line c = queueResponse fd (lit "-ERR auth required\n") c := by
  obtain ⟨cursor, htoken, -⟩ := nextToken_line line
  unfold handleLine
  rw [htoken, show (words isspace (cstr line)).head? = some cmd from hc]
  simp only [if_neg hauth, if_neg hquit]
  simp [requireAuth, hl, ha]

/-- The line that locks a session is told so. -/
theorem handleLine_locks {line : Bytes} (hl : c.s.locked = false)
    (h : (judge c.g.adminSecret c.s.standing line).locked = true) :
    (handleLine fd line c).s.out = lit "-ERR locked\n" := by
  have hlock : c.s.standing.locked = false := hl
  unfold judge at h
  rcases ho : offered line with _ | s
  · rw [ho] at h
    simp only at h
    split at h <;> rw [hlock] at h <;> cases h
  · rw [ho] at h
    simp only at h
    rcases hk : key c.g.adminSecret with _ | k
    · rw [hk, hlock] at h; cases h
    · rw [hk] at h
      simp only at h
      by_cases hsk : s = k
      · rw [if_pos hsk, hlock] at h; cases h
      · rw [if_neg hsk] at h
        by_cases hf : c.s.authFailures + 1 ≥ mngMaxAuthFailures
        · -- the line is `AUTH` with a wrong secret
          obtain ⟨hsec, hne⟩ : c.g.adminSecret = some k ∧ k ≠ [] := by
            unfold key at hk
            obtain ⟨h1, h2⟩ := Option.filter_eq_some_iff.mp hk
            exact ⟨h1, by simpa using h2⟩
          obtain ⟨cursor, htoken, hargs⟩ := nextToken_line line
          rw [offered_words ho] at htoken hargs
          obtain ⟨r1, h1, w1⟩ := nextToken_spec cursor
          obtain ⟨r2, h2, -⟩ := nextToken_spec r1
          rw [w1] at h2
          rw [hargs] at h1 h2
          unfold handleLine
          rw [htoken]
          simp only [List.head?_cons, if_true]
          unfold handleAuth
          simp only [h1, h2, List.head?_cons, List.tail_cons, List.head?_nil, hsec, if_neg hne,
            if_neg hsk]
          exact (congrArg (fun x : MCtx => x.s.out) (if_pos hf)).trans (queueResponse_out _ (by decide))
        · have hf' : ¬c.s.standing.failures + 1 ≥ mngMaxAuthFailures := hf
          rw [if_neg hf', hlock] at h
          cases h

theorem handleAuth_g (cursor : Bytes) : (handleAuth fd cursor c).g = c.g := by
  unfold handleAuth
  simp only
  split
  · split
    · exact queueResponse_g fd c _
    · split
      · exact queueResponse_g fd c _
      · split
        · rfl
        · split <;> rfl
  · exact queueResponse_g fd c _

theorem handleStats_g : (handleStats fd c).g = c.g := by
  unfold handleStats
  split <;> exact queueResponse_g fd c _

theorem handleUsers_g : (handleUsers fd c).g = c.g := by
  unfold handleUsers
  split
  · exact queueResponse_g fd c _
  · split
    · exact queueResponse_g fd c _
    · split
      · exact queueResponse_g fd c _
      · rfl

theorem requireAuth_g : (requireAuth fd c).1.g = c.g ∧
    ((requireAuth fd c).2 = true → c.s.authenticated = true) := by
  unfold requireAuth
  cases c.s.locked <;> cases c.s.authenticated <;> simp

/-- What is shared changes only for a session that has authenticated, by `USER` or `CONFIG`. -/
theorem handleLine_g (line : Bytes) : (handleLine fd line c).g = c.g ∨
    c.s.authenticated = true ∧
      (command line = some (lit "USER") ∨ command line = some (lit "CONFIG")) := by
  obtain ⟨cursor, htoken, -⟩ := nextToken_line line
  unfold handleLine
  rw [htoken, show (words isspace (cstr line)).head? = command line from rfl]
  cases hc : command line with
  | none => exact Or.inl (queueResponse_g fd c _)
  | some cmd =>
    simp only
    split
    · exact Or.inl (handleAuth_g cursor)
    · split
      · left
        split <;> rfl
      · obtain ⟨hg, ha⟩ := @requireAuth_g fd c
        rcases hra : requireAuth fd c with ⟨c', ok⟩
        rw [hra] at hg ha
        cases ok with
        | false => exact Or.inl hg
        | true =>
          simp only
          split
          · exact Or.inl (handleStats_g.trans hg)
          · split
            · exact Or.inl (handleUsers_g.trans hg)
            · split
              · next hu => exact Or.inr ⟨ha rfl, Or.inl (by rw [hu])⟩
              · split
                · next hu => exact Or.inr ⟨ha rfl, Or.inr (by rw [hu])⟩
                · exact Or.inl ((queueResponse_g fd c' _).trans hg)

/-! ## The history decides -/

/-- Where a session stands after the lines of its history. -/
def standingOf (secret : Option Bytes) (h : List MngObs) : Standing :=
  h.foldl (fun st o => match o with
    | .command line _ => judge secret st line
    | .overflow _ => st) .start

/-- The answer lists the users. -/
def Standing.Listed (st : Standing) : MngObs → Prop
  | .command line _ => st.Lists line
  | .overflow _ => False

/-- What is on record of one answer, for a session that stood at `st` before it. -/
structure Answered (tidy : Prop) (secret : Option Bytes) (st : Standing) (o : MngObs) : Prop where
  /-- A session about to close takes no line. -/
  opened : st.closing = false
  line : OneLine o.response ↔ (st.Listed o → tidy)
  refused : ∀ line response cmd, o = .command line response → st.authenticated = false →
    command line = some cmd → cmd ≠ lit "AUTH" → cmd ≠ lit "QUIT" →
    response = lit "-ERR auth required\n"
  locked : ∀ line response, o = .command line response →
    (judge secret st line).locked = true → response = lit "-ERR locked\n"

/-- The flags are those of the history, and every answer was due. -/
structure Vetted (tidy : Prop) (secret : Option Bytes) (s : MngSession) : Prop where
  standing : s.standing = standingOf secret s.hist
  answers : ∀ pre o post, s.hist = pre ++ o :: post → Answered tidy secret (standingOf secret pre) o

/-- A session that is about to close has something left to send. -/
structure Waiting (s : MngSession) : Prop where
  closing : s.closing = true → s.out ≠ []
  unsent : s.out ≠ [] → s.outSent < s.out.length
  sent : s.outSent ≤ s.out.length

/-- Since `old`, a command that changes what is shared came after a successful `AUTH`. -/
def Commanded (secret : Option Bytes) (old h : List MngObs) : Prop :=
  ∃ pre line response post, h = pre ++ .command line response :: post ∧ old <+: pre ∧
    (standingOf secret pre).authenticated = true ∧
    (command line = some (lit "USER") ∨ command line = some (lit "CONFIG"))

variable {tidy : Prop} {secret : Option Bytes} {s s' : MngSession}

@[simp] theorem standingOf_snoc (h : List MngObs) (o : MngObs) :
    standingOf secret (h ++ [o]) = match o with
      | .command line _ => judge secret (standingOf secret h) line
      | .overflow _ => standingOf secret h := by
  simp [standingOf]

theorem judge_locked {st : Standing} (h : st.locked = true → st.closing = true) (line : Bytes) :
    (judge secret st line).locked = true → (judge secret st line).closing = true := by
  unfold judge
  split
  · split
    · split
      · exact h
      · split
        · exact fun _ => rfl
        · exact h
    · exact h
  · split
    · exact fun _ => rfl
    · exact h

/-- A locked session is about to close. -/
theorem standingOf_locked (h : List MngObs) :
    (standingOf secret h).locked = true → (standingOf secret h).closing = true := by
  induction h using List.reverseRecOn with
  | nil => exact fun he => by cases he
  | append_singleton h o ih =>
    rw [standingOf_snoc]
    cases o with
    | command line response => exact judge_locked ih line
    | overflow response => exact ih

theorem Vetted.fresh (fd : Fd) : Vetted tidy secret { MngSession.zero with fd := fd } where
  standing := rfl
  answers pre o post h := by cases pre <;> cases h

theorem Vetted.congr (h : Vetted tidy secret s) (hst : s'.standing = s.standing) (hh : s'.hist = s.hist) :
    Vetted tidy secret s' := by
  refine ⟨by rw [hst, hh]; exact h.standing, ?_⟩
  rw [hh]
  exact h.answers

/-- One more answer. -/
theorem Vetted.snoc (h : Vetted tidy secret s) {o : MngObs} (hh : s'.hist = s.hist ++ [o])
    (ho : Answered tidy secret s.standing o) (hst : s'.standing = standingOf secret (s.hist ++ [o])) :
    Vetted tidy secret s' := by
  refine ⟨by rw [hst, hh], fun pre x post he => ?_⟩
  rw [hh] at he
  rcases List.eq_nil_or_concat post with rfl | ⟨post', y, rfl⟩
  · obtain ⟨h1, h2⟩ := List.append_inj' he rfl
    cases h2
    rw [← h1, ← h.standing]
    exact ho
  · rw [List.concat_eq_append, ← List.cons_append, ← List.append_assoc] at he
    exact h.answers pre x post' (List.append_inj' he rfl).1

/-- A session that stands open and answers a line. -/
theorem handleLine_answered (h : Vetted tidy secret c.s) (hs : c.g.adminSecret = secret)
    (hc : c.s.closing = false) (ht : Stocked tidy c.g.users) {line : Bytes}
    (hr : Replied (c.s.standing.Lists line) c (handleLine fd line c)) :
    Answered tidy secret c.s.standing (.command line (handleLine fd line c).s.out) := by
  have hl : c.s.locked = false := by
    have hlock := @standingOf_locked secret c.s.hist
    rw [← h.standing] at hlock
    have hlock : c.s.locked = true → c.s.closing = true := hlock
    rw [hc] at hlock
    simpa using hlock
  refine ⟨hc, hr.line tidy ht, fun l r cmd he ha hcmd h1 h2 => ?_, fun l r he hj => ?_⟩
  · cases he
    rw [handleLine_refused hcmd h1 h2 hl ha]
    exact queueResponse_out _ (by decide)
  · cases he
    subst hs
    exact handleLine_locks hl hj

end Mng
end Socks5d
