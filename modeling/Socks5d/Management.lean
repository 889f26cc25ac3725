import Socks5d.Sessions

/-! # Management sessions

What is promised of every management session of every run: who may command,
when it is locked out, and how what it answers belongs to what it was sent. -/
namespace Socks5d
open Ctx Lib.Lines

/-- A management session of the process and its connection: a live one, or one
that was closed. -/
inductive World.Admin (w : World) : MngSession → Sock → Prop
  | live {m : Ptr} {k : Sock} : w.Hosts m → w.os.fds (w.mngMem m).fd = some k →
      Admin w (w.mngMem m) k
  | ended {s : MngSession} {k : Sock} : s ∈ w.mngEnded → s.closedWith = some k → Admin w s k

/-! ## Authorisation -/

namespace Mng

/-- The line is `AUTH` with exactly one argument, the secret. -/
def grants (secret : Option Bytes) : MngObs → Bool
  | .command line _ => (key secret).isSome && offered line = key secret
  | .overflow _ => false

/-- The line is `AUTH` with exactly one argument, but not the secret there is. -/
def denies (secret : Option Bytes) : MngObs → Bool
  | .command line _ => (key secret).isSome && (offered line).isSome && offered line ≠ key secret
  | .overflow _ => false

/-- How many lines had a wrong secret since the last one that had the right one. -/
def wrongs (secret : Option Bytes) (h : List MngObs) : Nat :=
  (h.reverse.takeWhile fun o => !grants secret o).countP (denies secret)

variable {secret : Option Bytes} {s : MngSession}

theorem wrongs_snoc (h : List MngObs) (o : MngObs) : wrongs secret (h ++ [o]) =
    if grants secret o then 0 else wrongs secret h + if denies secret o then 1 else 0 := by
  unfold wrongs
  rw [List.reverse_append, List.reverse_singleton, List.singleton_append, List.takeWhile_cons]
  cases hg : grants secret o with
  | true => rfl
  | false =>
    simp only [Bool.not_false, if_true, Bool.false_eq_true, if_false]
    exact List.countP_cons

/-- What a line does to the flags is settled by the secret it offers. -/
theorem judge_eq (st : Standing) (line r : Bytes) :
    judge secret st line =
      if grants secret (.command line r) then { st with authenticated := true, failures := 0 }
      else if denies secret (.command line r) then
        { st with
          failures := st.failures + 1
          locked := st.locked || mngMaxAuthFailures ≤ st.failures + 1
          closing := st.closing || mngMaxAuthFailures ≤ st.failures + 1 }
      else { st with closing := st.closing || (offered line = none && quits line) } := by
  unfold judge grants denies
  cases ho : offered line with
  | none =>
    cases hk : key secret with
    | none => cases hq : quits line <;> simp [ho]
    | some k => cases hq : quits line <;> simp [ho]
  | some x =>
    cases hk : key secret with
    | none => simp
    | some k =>
      by_cases hx : x = k
      · simp [ho, hx]
      · by_cases hf : mngMaxAuthFailures ≤ st.failures + 1 <;> simp [ho, hx, hf]

theorem standingOf_failures (h : List MngObs) :
    (standingOf secret h).failures = wrongs secret h := by
  induction h using List.reverseRecOn with
  | nil => rfl
  | append_singleton h o ih =>
    rw [standingOf_snoc, wrongs_snoc]
    cases o with
    | overflow r => exact ih
    | command line r =>
      show (judge secret _ line).failures = _
      rw [judge_eq _ line r, ← ih]
      split
      · rfl
      · split <;> rfl

theorem standingOf_authenticated (h : List MngObs) :
    (standingOf secret h).authenticated = h.any (grants secret) := by
  induction h using List.reverseRecOn with
  | nil => rfl
  | append_singleton h o ih =>
    rw [standingOf_snoc, List.any_append, ← ih]
    cases o with
    | overflow r => exact (Bool.or_false _).symm
    | command line r =>
      show (judge secret _ line).authenticated = _
      rw [judge_eq _ line r]
      cases hg : grants secret (.command line r) with
      | true => simp [hg]
      | false =>
        have hany : [MngObs.command line r].any (grants secret) = false := by simp [hg]
        rw [hany, Bool.or_false, if_neg (by simp)]
        split <;> rfl

/-- Three wrong secrets lock a session. -/
theorem standingOf_lockedOut (h : List MngObs) :
    3 ≤ wrongs secret h → (standingOf secret h).locked = true := by
  induction h using List.reverseRecOn with
  | nil => exact fun hle => absurd hle (Nat.not_succ_le_zero 2)
  | append_singleton h o ih =>
    rw [standingOf_snoc, wrongs_snoc]
    cases o with
    | overflow r => exact ih
    | command line r =>
      show _ → (judge secret _ line).locked = true
      rw [judge_eq _ line r]
      split
      · exact fun hle => absurd hle (by decide)
      · split
        · intro hle
          rw [standingOf_failures]
          have : (mngMaxAuthFailures ≤ wrongs secret h + 1) = True := eq_true hle
          simp [this]
        · exact ih

theorem standingOf_keyless (hk : key secret = none) (h : List MngObs) :
    (standingOf secret h).authenticated = false ∧ (standingOf secret h).locked = false := by
  induction h using List.reverseRecOn with
  | nil => exact ⟨rfl, rfl⟩
  | append_singleton h o ih =>
    rw [standingOf_snoc]
    cases o with
    | overflow r => exact ih
    | command line r =>
      show (judge secret _ line).authenticated = false ∧ (judge secret _ line).locked = false
      have h1 : grants secret (.command line r) = false := by simp [grants, hk]
      have h2 : denies secret (.command line r) = false := by simp [denies, hk]
      rw [judge_eq _ line r, h1, h2]
      exact ih

/-- Commands other than `AUTH` and `QUIT`. -/
def privileged (line : Bytes) : Prop :=
  ∃ cmd, command line = some cmd ∧ cmd ≠ lit "AUTH" ∧ cmd ≠ lit "QUIT"

/-- A session does what it is entitled to, and is locked out after three wrong secrets. -/
structure Authorised (secret : Option Bytes) (s : MngSession) : Prop where
  authenticated : s.authenticated = true ↔ ∃ o ∈ s.hist, grants secret o = true
  refused : ∀ pre line r post, s.hist = pre ++ .command line r :: post → privileged line →
    (∀ o ∈ pre, grants secret o = false) → r = lit "-ERR auth required\n"
  locked : ∀ pre line r post, s.hist = pre ++ .command line r :: post →
    3 ≤ wrongs secret (pre ++ [.command line r]) →
      r = lit "-ERR locked\n" ∧ post = [] ∧ s.locked = true ∧ s.closing = true
  keyless : key secret = none → s.authenticated = false ∧ s.locked = false

theorem Vetted.authorised (h : Vetted tidy secret s) : Authorised secret s := by
  have hst := h.standing
  have hauth : s.authenticated = (standingOf secret s.hist).authenticated :=
    congrArg Standing.authenticated hst
  have hlock : s.locked = (standingOf secret s.hist).locked := congrArg Standing.locked hst
  refine ⟨?_, fun pre line r post he ⟨cmd, hc, h1, h2⟩ hno => ?_, fun pre line r post he hle => ?_,
    fun hk => ?_⟩
  · rw [hauth, standingOf_authenticated, List.any_eq_true]
  · refine (h.answers pre _ post he).refused line r cmd rfl ?_ hc h1 h2
    rw [standingOf_authenticated]
    exact List.any_eq_false.mpr fun o ho => by rw [hno o ho]; simp
  · have hlocked := standingOf_lockedOut _ hle
    have hclosing := standingOf_locked _ hlocked
    rw [standingOf_snoc] at hlocked
    have hans := (h.answers pre _ post he).locked line r rfl hlocked
    -- nothing is answered after that
    have hpost : post = [] := by
      cases post with
      | nil => rfl
      | cons x post =>
        have hopen := (h.answers (pre ++ [.command line r]) x post (by rw [he]; simp)).opened
        rw [hclosing] at hopen
        cases hopen
    subst hpost
    refine ⟨hans, rfl, ?_, ?_⟩
    · rw [hlock, he]
      exact standingOf_lockedOut _ hle
    · have h1 : s.closing = (standingOf secret s.hist).closing := congrArg Standing.closing hst
      rw [h1, he]
      exact hclosing
  · rw [hauth, hlock]
    exact standingOf_keyless hk _

end Mng

section Claims
variable {τ : Terms} {ρ : Roster} {w : World} {s : MngSession} {k : Sock}

theorem Orderly.admin (h : Orderly τ ρ w) (hs : w.Admin s k) :
    Mng.Vetted τ.tidy τ.secret s ∧ Framed s k := by
  cases hs with
  | live hm hk =>
    have ha := h.inv.admins _ (h.inv.hosts_iff.mp hm)
    exact ⟨ha.vetted, ha.framed k hk⟩
  | ended hs hk =>
    obtain ⟨hv, k', hk', hf⟩ := h.inv.left s hs
    rw [hk] at hk'
    cases hk'
    exact ⟨hv, hf⟩

/-- A change of what management sessions share, by a session that has offered
the secret before. -/
def World.Ruled (secret : Option Bytes) (w w' : World) : Prop :=
  ∃ m pre line r post, (w'.mngMem m).hist = pre ++ .command line r :: post ∧
    (w.mngMem m).hist <+: pre ∧ (∃ o ∈ pre, Mng.grants secret o = true) ∧
    (Mng.command line = some (lit "USER") ∨ Mng.command line = some (lit "CONFIG"))

/-- The user store and the configuration change only at the command of a session
that has authenticated; without that, a session reads nothing of what is shared
either. Three wrong secrets in a row end it. -/
theorem commands_authorised (b : Boot) (is : List Input) :
    (∀ s k, (b.start.run is).Admin s k → Mng.Authorised b.adminSecret s ∧
      k.tx ++ s.out.drop s.outSent = s.hist.flatMap MngObs.response) ∧
    (∀ m, (b.start.run is).Hosts m → ((b.start.run is).mngMem m).closing = true →
      ((b.start.run is).mngMem m).outSent < ((b.start.run is).mngMem m).out.length) ∧
    ∀ i, ((b.start.run is).step i).g.users = (b.start.run is).g.users ∧
        ((b.start.run is).step i).g.config = (b.start.run is).g.config ∨
      World.Ruled b.adminSecret (b.start.run is) ((b.start.run is).step i) := by
  obtain ⟨ρ, h⟩ := b.orderly is
  refine ⟨fun s k hs => ?_, fun m hm hc => ?_, fun i => ?_⟩
  · obtain ⟨hv, done, -, hf⟩ := h.admin hs
    exact ⟨hv.authorised, hf.sent⟩
  · have hw := (h.inv.admins m (h.inv.hosts_iff.mp hm)).waiting
    exact hw.unsent (hw.closing hc)
  · obtain ⟨ρ', h1⟩ := h.step (h.granted_plain i)
    refine h1.settings.imp_right ?_
    rintro ⟨m, pre, line, r, post, he, hp, ha, hc⟩
    rw [Mng.standingOf_authenticated, List.any_eq_true] at ha
    exact ⟨m, pre, line, r, post, he, hp, ha, hc⟩

/-! ## One response for each line -/

/-- What the session has taken of the client's stream. -/
def MngSession.taken (s : MngSession) (k : Sock) : Bytes :=
  k.rx.take (k.rx.length - (s.inBuf.drop s.inPos).length)

theorem taken_eq {done : Bytes} (h : k.rx = done ++ s.inBuf.drop s.inPos) : s.taken k = done := by
  unfold MngSession.taken
  rw [h, List.length_append, Nat.add_sub_cancel]
  exact List.take_left

/-- What belongs to a line: one line of answer to a command, or that it is too long. -/
def MngObs.Answers (line : Bytes) (o : MngObs) : Prop :=
  if 1023 < line.length then o = .overflow (lit "-ERR line too long\n")
  else o = .command line o.response ∧ OneLine o.response

/-- Every line that has ended has its response, and there are no others. -/
def MngSession.Corresponds (s : MngSession) (k : Sock) : Prop :=
  List.Forall₂ MngObs.Answers (lines isCr isLf (s.taken k)) s.hist

theorem MngObs.Answers.oneLine {l : Bytes} {o : MngObs} (h : MngObs.Answers l o) : OneLine o.response := by
  unfold MngObs.Answers at h
  split at h
  · rw [h]
    decide
  · exact h.2

theorem MngSession.Corresponds.oneLine (h : s.Corresponds k) : ∀ o ∈ s.hist, OneLine o.response := by
  have hboth : List.Forall₂ (fun o l => OneLine o.response ∧ True) s.hist
      (lines isCr isLf (s.taken k)) :=
    .flip (h.imp fun _ _ ho => ⟨ho.oneLine, trivial⟩)
  exact ((List.forall₂_and_left _ _).mp hboth).1

theorem forall₂_command : ∀ {ls : List Bytes} {h : List MngObs}, (∀ l ∈ ls, l.length ≤ 1023) →
    (∀ o ∈ h, OneLine o.response) → h.map MngObs.event = ls.map .line →
    List.Forall₂ MngObs.Answers ls h
  | [], [], _, _, _ => .nil
  | [], _ :: _, _, _, he => by cases he
  | _ :: _, [], _, _, he => by cases he
  | l :: ls, o :: h, hl, ho, he => by
    obtain ⟨hev, ht⟩ := List.cons.inj he
    refine .cons ?_ (forall₂_command (fun l' hl' => hl l' (List.mem_cons_of_mem _ hl'))
      (fun o' ho' => ho o' (List.mem_cons_of_mem _ ho')) ht)
    have hshort : ¬1023 < l.length := Nat.not_lt.mpr (hl l List.mem_cons_self)
    unfold MngObs.Answers
    rw [if_neg hshort]
    refine ⟨?_, ho o List.mem_cons_self⟩
    cases o with
    | command content r =>
      have hc : content = l := LineEvent.line.inj hev
      rw [hc]
      rfl
    | overflow r => cases hev

/-- What the lines come to when none is too long. -/
theorem Framed.events_short (h : Framed s k)
    (hshort : ∀ seg ∈ segments isCr isLf (s.taken k), seg.length ≤ 1023) :
    s.hist.map MngObs.event = (lines isCr isLf (s.taken k)).map .line := by
  obtain ⟨done, hrx, hf⟩ := h
  rw [taken_eq hrx] at hshort ⊢
  have hevents : s.hist.map MngObs.event = (gather done).1 := (congrArg Prod.fst hf.read).symm
  rw [hevents]
  exact congrArg Prod.fst (assemble_short fun seg hseg => Nat.lt_succ_of_le (hshort seg hseg))

/-- A line that is too long leaves an answer too many. -/
theorem Framed.short (h : Framed s k) (hc : s.Corresponds k) :
    ∀ seg ∈ segments isCr isLf (s.taken k), seg.length ≤ 1023 := by
  obtain ⟨done, hrx, hf⟩ := h
  have hevents : s.hist.map MngObs.event = (gather done).1 := (congrArg Prod.fst hf.read).symm
  have hlen := hc.length_eq
  rw [taken_eq hrx] at hlen ⊢
  rw [← List.length_map MngObs.event, hevents] at hlen
  intro seg hseg
  exact Nat.le_of_lt_succ ((assemble_length_iff (by decide) done).mp hlen.symm seg hseg)

/-! ### The list of the users -/

/-- One of the lines asks for the users after one that offers the secret. -/
def Mng.Asked (secret : Option Bytes) (ls : List Bytes) : Prop :=
  ∃ pre line post, ls = pre ++ line :: post ∧ command line = some (lit "USERS") ∧
    ∃ l ∈ pre, (offered l).isSome ∧ offered l = key secret

theorem Mng.grants_iff {secret : Option Bytes} {l r : Bytes} :
    grants secret (.command l r) = true ↔ (offered l).isSome ∧ offered l = key secret := by
  unfold grants
  rw [Bool.and_eq_true, decide_eq_true_iff]
  exact ⟨fun ⟨h1, h2⟩ => ⟨h2 ▸ h1, h2⟩, fun ⟨h1, h2⟩ => ⟨h2 ▸ h1, h2⟩⟩

/-- An answer to the lines that lists the users is one that was asked for. -/
theorem Mng.Asked.of_listed {secret : Option Bytes} {ls : List Bytes} {pre post : List MngObs}
    {o : MngObs} (he : (pre ++ o :: post).map MngObs.event = ls.map .line)
    (ho : (standingOf secret pre).Listed o) : Asked secret ls := by
  cases o with
  | overflow r => exact ho.elim
  | command line r =>
    obtain ⟨hauth, -, hcmd⟩ := ho
    rw [standingOf_authenticated, List.any_eq_true] at hauth
    obtain ⟨x, hx, hgrant⟩ := hauth
    rw [List.map_append, List.map_cons] at he
    obtain ⟨ls₁, ls₂, rfl, h1, h2⟩ := List.map_eq_append_iff.mp he.symm
    obtain ⟨l, ls₃, rfl, hl, -⟩ := List.map_eq_cons_iff.mp h2
    cases hl
    refine ⟨ls₁, _, ls₃, rfl, hcmd, ?_⟩
    cases x with
    | overflow r => cases hgrant
    | command content r =>
      obtain ⟨l, hl, he⟩ := List.mem_map.mp (h1 ▸ List.mem_map_of_mem hx)
      cases he
      exact ⟨_, hl, grants_iff.mp hgrant⟩

/-- The list of the users is an answer to the line that asks for it. -/
theorem Mng.Asked.listed {tidy : Prop} {secret : Option Bytes} {ls : List Bytes}
    (h : Asked secret ls) (hv : Vetted tidy secret s)
    (he : s.hist.map MngObs.event = ls.map .line) :
    ∃ pre o post, s.hist = pre ++ o :: post ∧ (standingOf secret pre).Listed o := by
  obtain ⟨pre, line, post, rfl, hcmd, l, hl, hoffer⟩ := h
  rw [List.map_append, List.map_cons] at he
  obtain ⟨h₁, h₂, hh, h1, h2⟩ := List.map_eq_append_iff.mp he
  obtain ⟨o, h₃, rfl, ho, -⟩ := List.map_eq_cons_iff.mp h2
  refine ⟨h₁, o, h₃, hh, ?_⟩
  have hopen := (hv.answers h₁ o h₃ hh).opened
  cases o with
  | overflow r => cases ho
  | command content r =>
    cases ho
    refine ⟨?_, ?_, hcmd⟩
    · rw [standingOf_authenticated, List.any_eq_true]
      obtain ⟨x, hx, he⟩ := List.mem_map.mp (h1 ▸ List.mem_map_of_mem hl)
      cases x with
      | overflow r => cases he
      | command content r =>
        cases he
        exact ⟨_, hx, grants_iff.mpr hoffer⟩
    · -- a locked session takes no line
      cases hlock : (standingOf secret h₁).locked with
      | false => rfl
      | true => exact absurd (standingOf_locked h₁ hlock) (by rw [hopen]; decide)

/-- A session has answered each line it was sent by one line, and nothing else,
exactly when none of what it has taken was too long and, if some name the server
started with holds a line feed, it was not asked for the users by a client that
may. Of a line that is too long it reports the first part and takes the rest for
another line. -/
theorem lines_answered (b : Boot) (is : List Input) (hs : (b.start.run is).Admin s k) :
    (s.Corresponds k ↔ (∀ seg ∈ segments isCr isLf (s.taken k), seg.length ≤ 1023) ∧
      (Mng.Asked b.adminSecret (lines isCr isLf (s.taken k)) → b.Tidy)) ∧
    k.tx ++ s.out.drop s.outSent = s.hist.flatMap MngObs.response := by
  obtain ⟨ρ, h⟩ := b.orderly is
  obtain ⟨hv, hf⟩ := h.admin hs
  refine ⟨⟨fun hc => ?_, fun ⟨hshort, htidy⟩ => ?_⟩, ?_⟩
  · have hshort := hf.short hc
    refine ⟨hshort, fun hasked => ?_⟩
    obtain ⟨pre, o, post, hh, hlisted⟩ := hasked.listed hv (hf.events_short hshort)
    exact (hv.answers pre o post hh).line.mp
      (hc.oneLine o (hh ▸ List.mem_append_right pre List.mem_cons_self)) hlisted
  · have hevents := hf.events_short hshort
    refine forall₂_command (fun l hl => hshort l (List.dropLast_subset _ hl)) (fun o ho => ?_) hevents
    obtain ⟨pre, post, hh⟩ := List.append_of_mem ho
    refine (hv.answers pre o post hh).line.mpr fun hlisted => htidy ?_
    exact .of_listed (hh ▸ hevents) hlisted
  · obtain ⟨done, -, hf⟩ := hf
    exact hf.sent

/-- The connection of the session on descriptor 2. -/
def World.adminSock (w : World) : Sock := (w.os.fds 2).getD .none

/-- A server with a secret and these users, whose administrator asks for them. -/
def Boot.inquired (users : List (Bytes × Bytes)) : Boot :=
  { Boot.sample (some (lit "s")) ⟨0, 0, 0, 0⟩ with users := users }

def World.inquired (users : List (Bytes × Bytes)) : World :=
  (Boot.inquired users).start.run (Input.round 1 1 [] ++
    Input.round 2 2 (lit "AUTH s\nUSERS\n") ++ Input.round 2 2 [] ++ Input.round 2 2 [])

/-- Without users the answer is one line; a name that holds a line feed makes it two. -/
theorem lines_answered_sample :
    ((World.inquired []).mngMem 0).Corresponds (World.inquired []).adminSock ∧
    (World.inquired []).adminSock.tx = lit "+OK authenticated\n+OK users=-\n" ∧
    ¬((World.inquired [(lit "a\nb", lit "x")]).mngMem 0).Corresponds
      (World.inquired [(lit "a\nb", lit "x")]).adminSock := by
  have hadmin : (World.inquired []).Admin ((World.inquired []).mngMem 0)
      (World.inquired []).adminSock :=
    .live ⟨2, ⟨opRead, .mng, 0⟩, by decide +kernel, rfl, rfl⟩ (by decide +kernel)
  have hadmin' : (World.inquired [(lit "a\nb", lit "x")]).Admin
      ((World.inquired [(lit "a\nb", lit "x")]).mngMem 0)
      (World.inquired [(lit "a\nb", lit "x")]).adminSock :=
    .live ⟨2, ⟨opRead, .mng, 0⟩, by decide +kernel, rfl, rfl⟩ (by decide +kernel)
  have htidy : (Boot.inquired []).Tidy := by
    intro u hu name hname
    have hnone : (Boot.inquired []).start.g.users = some usersCreate := rfl
    rw [← Option.some.inj (hnone.symm.trans hu)] at hname
    cases hname
  refine ⟨(lines_answered (Boot.inquired []) _ hadmin).1.mpr ⟨by decide +kernel, fun _ => htidy⟩,
    by decide +kernel, fun hc => ?_⟩
  have hlines : lines isCr isLf (((World.inquired [(lit "a\nb", lit "x")]).mngMem 0).taken
      (World.inquired [(lit "a\nb", lit "x")]).adminSock) = [lit "AUTH s", lit "USERS"] := by
    decide +kernel
  have hplain := ((lines_answered (Boot.inquired [(lit "a\nb", lit "x")]) _ hadmin').1.mp hc).2
    (hlines ▸ ⟨[lit "AUTH s"], lit "USERS", [], rfl, by decide +kernel, lit "AUTH s",
      List.mem_singleton_self _, by decide +kernel⟩) _ rfl
  exact hplain (lit "a\nb") (by decide +kernel) (by decide)

/-- A management session that sends 1024 letters and then `QUIT`. -/
def Input.overlong : List Input :=
  Input.round 1 1 [] ++ (List.replicate 4 (Input.round 2 2 (List.replicate 256 65))).flatten ++
    Input.round 2 2 [] ++ Input.round 2 2 [81, 85, 73, 84, 10]

theorem overlong_admin : (Boot.open.start.run Input.overlong).Admin
    ((Boot.open.start.run Input.overlong).mngMem 0)
    (Boot.open.start.run Input.overlong).adminSock :=
  .live ⟨2, ⟨opWrite, .mng, 0⟩, by decide +kernel, rfl, rfl⟩ (by decide +kernel)

/-- One line was sent, and two responses come back. -/
theorem overlong_answered_twice :
    ∃ s k, (Boot.open.start.run Input.overlong).Admin s k ∧ ¬s.Corresponds k := by
  refine ⟨_, _, overlong_admin, fun hc => ?_⟩
  have hlines : (lines isCr isLf (((Boot.open.start.run Input.overlong).mngMem 0).taken
      (Boot.open.start.run Input.overlong).adminSock)).length = 1 := by decide +kernel
  have hhist : ((Boot.open.start.run Input.overlong).mngMem 0).hist.length = 2 := by
    decide +kernel
  have hlen := hc.length_eq
  rw [hlines, hhist] at hlen
  cases hlen

end Claims
end Socks5d
