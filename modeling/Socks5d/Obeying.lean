import Socks5d.Commands

/-! # What the client asks for is done

What a step of the process means for one of its management sessions, whatever
else goes on; and from it, what the line of the client leads to. -/
namespace Socks5d
open Ctx Lib.CString Lib.Words Lib.Lines

/-! ## Callbacks of one session -/

namespace Mng

/-- From `c₀` on, `c` is what the session's lines have made of it, and it is at
work on nothing that it has not answered. -/
structure Follows (c₀ c : MCtx) : Prop where
  since : Since c₀.s.hist c₀ c
  idle : c₀.s.out = [] → c.s.hist = c₀.s.hist → c.s.out = []
  drained : (c₀.s.out = [] → c₀.s.inBuf.drop c₀.s.inPos = []) →
    c.s.out = [] → c.s.inBuf.drop c.s.inPos = []

variable {tidy : Prop} {secret : Option Bytes} {c₀ c c' : MCtx} {fd : Fd}

theorem Follows.refl (c : MCtx) : Follows c c := ⟨.refl c, fun ho _ => ho, fun hd => hd⟩

/-- The history is the same after two steps only if it was in between. -/
theorem Follows.same (h : Follows c₀ c) (hp : c.s.hist <+: c'.s.hist)
    (hh : c'.s.hist = c₀.s.hist) : c.s.hist = c₀.s.hist :=
  hp.eq_of_length_le (hh ▸ h.since.kept.length_le) |>.trans hh

theorem served_hist (h : Served tidy secret c c') : c.s.hist <+: c'.s.hist := by
  obtain ⟨c1, h1, ⟨rfl, -⟩ | rfl⟩ := h
  · exact h1.hist
  · obtain ⟨k, hk⟩ := h1.good.own.sock
    rw [unregister_eq h1.good.own hk]
    exact h1.hist

theorem Follows.read (h : Follows c₀ c) (hc : Conversing tidy secret c) (hfd : fd = c.s.fd)
    (hw : Waiting c.s) (hopen : (mngRead fd c).s.closedWith = none) :
    Follows c₀ (mngRead fd c) := by
  obtain ⟨hidle, hdrained⟩ := mngRead_idle hc hfd hw hopen
  have hp := served_hist (mngRead_served hc hfd hw)
  refine ⟨mngRead_since hc hfd hw h.since, fun ho hh => ?_, fun hd => hdrained (h.drained hd)⟩
  have hmid := h.same hp hh
  exact hidle (h.idle ho hmid) (hh.trans hmid.symm)

theorem Follows.write (h : Follows c₀ c) (hc : Conversing tidy secret c) (hfd : fd = c.s.fd)
    (hw : Waiting c.s) (hopen : (mngWrite fd c).s.closedWith = none) :
    Follows c₀ (mngWrite fd c) := by
  obtain ⟨hidle, hdrained⟩ := mngWrite_idle hc hfd hw hopen
  have hp := served_hist (mngWrite_served hc hfd hw)
  refine ⟨mngWrite_since hc hfd hw h.since, fun ho hh => ?_, fun _ => hdrained⟩
  have hmid := h.same hp hh
  exact hidle (h.idle ho hmid) (hh.trans hmid.symm)

end Mng

/-! ## Steps of the process -/

/-- What a step means for a management session: it is left alone, or served. -/
inductive World.Minds (w w' : World) (m : Ptr) : Prop
  | aside : w'.mngMem m = w.mngMem m → Minds w w' m
  | served (c₀ : MCtx) : c₀.s = w.mngMem m → c₀.g = w.g → Mng.Follows c₀ (w'.mngCtx m) →
      Minds w w' m

section Step
variable {τ : Terms} {b : Boot} {ρ ρ' : Roster} {w w' : World} {m : Ptr}

theorem runMng_ctx {callback : MCtx → MCtx} (hself : (callback (w.mngCtx m)).self = m) :
    (w.runMng m callback).mngCtx m = callback (w.mngCtx m) := by
  have hmem : (w.runMng m callback).mngMem m = (callback (w.mngCtx m)).s := by
    unfold World.runMng
    dsimp only
    split <;> exact mngPut_mem hself
  obtain ⟨hos, hsel⟩ := runMng_marks w m callback
  have hg : (w.runMng m callback).g = (callback (w.mngCtx m)).g := by
    unfold World.runMng
    dsimp only
    split <;> rfl
  unfold World.mngCtx at hmem hos hsel hg ⊢
  rw [hmem, hos, hsel, hg]
  exact congrArg (fun p => (⟨p, _, _, _, _⟩ : MCtx)) hself.symm

theorem Mng.Served.self {tidy : Prop} {secret : Option Bytes} {c c' : MCtx}
    (h : Mng.Served tidy secret c c') : c'.self = c.self := by
  obtain ⟨c1, h1, ⟨rfl, -⟩ | rfl⟩ := h
  · exact h1.good.frame.self
  · obtain ⟨k, hk⟩ := h1.good.own.sock
    rw [Mng.unregister_eq h1.good.own hk]
    exact h1.good.frame.self

theorem Inv.follows_read (h : Inv τ ρ w) {c₀ : MCtx} (hm : m ∈ ρ.adm)
    (hf : Mng.Follows c₀ (w.mngCtx m)) {fd : Fd} (hfd : fd = (w.mngMem m).fd)
    (hopen : ((w.runMng m (Mng.mngRead fd)).mngMem m).closedWith = none) :
    Mng.Follows c₀ ((w.runMng m (Mng.mngRead fd)).mngCtx m) := by
  have hc := h.toCore.conversing hm
  have hw := (h.admins m hm).waiting
  have hctx := runMng_ctx (Mng.mngRead_served hc hfd hw).self
  have ho : (Mng.mngRead fd (w.mngCtx m)).s.closedWith = none := by
    rw [← hctx]
    exact hopen
  rw [hctx]
  exact hf.read hc hfd hw ho

theorem Inv.follows_write (h : Inv τ ρ w) {c₀ : MCtx} (hm : m ∈ ρ.adm)
    (hf : Mng.Follows c₀ (w.mngCtx m)) {fd : Fd} (hfd : fd = (w.mngMem m).fd)
    (hopen : ((w.runMng m (Mng.mngWrite fd)).mngMem m).closedWith = none) :
    Mng.Follows c₀ ((w.runMng m (Mng.mngWrite fd)).mngCtx m) := by
  have hc := h.toCore.conversing hm
  have hw := (h.admins m hm).waiting
  have hctx := runMng_ctx (Mng.mngWrite_served hc hfd hw).self
  have ho : (Mng.mngWrite fd (w.mngCtx m)).s.closedWith = none := by
    rw [← hctx]
    exact hopen
  rw [hctx]
  exact hf.write hc hfd hw ho

/-- The descriptor of the session is looked at, and the session is still there after it. -/
theorem Inv.dispatch_follows (h : Inv τ ρ w) (hc : AllCalm ρ w) (hst : ¬τ.strict) {i : Fd} {it : Item}
    (hit : w.sel.fds i = some it) (hh : it.handler = .mng)
    (hh' : Inv τ ρ' (w.dispatch i)) (hm' : it.data ∈ ρ'.adm) :
    Mng.Follows (w.mngCtx it.data) ((w.dispatch i).mngCtx it.data) := by
  have hheard : ∀ {v : World}, τ.strict → v.Heard (i + 1) := fun hs => absurd hs hst
  have hopen : ((w.dispatch i).mngMem it.data).closedWith = none := (hh'.admins _ hm').own.opened
  -- the write handler, if it runs, runs for the same session
  have hwrite : ∀ {ρ₁ : Roster} {v : World}, Inv τ ρ₁ v →
      (∀ now, v.sel.fds i = some now → now.interest.write = true →
        now.handler = it.handler ∧ now.data = it.data) →
      ((v.writeTurn it i).mngMem it.data).closedWith = none →
      ((v.mngMem it.data).closedWith = none →
        Mng.Follows (w.mngCtx it.data) (v.mngCtx it.data)) →
      Mng.Follows (w.mngCtx it.data) ((v.writeTurn it i).mngCtx it.data) := by
    intro ρ₁ v hv hnow ho hf
    unfold World.writeTurn at ho ⊢
    cases hi : v.sel.fds i with
    | none =>
      rw [hi] at ho
      exact hf ho
    | some now =>
      rw [hi] at ho
      dsimp only at ho ⊢
      split at ho
      · next hgo =>
        rw [if_pos hgo]
        obtain ⟨h1, h2⟩ := hnow now hi (Bool.and_eq_true_iff.mp hgo).2
        obtain ⟨hm, hfd⟩ := hv.registry.mng i now hi (h1.trans hh)
        rw [h2] at hm hfd
        have hrun : v.handleWrite { now with data := it.data } i =
            v.runMng it.data (Mng.mngWrite i) := by
          unfold World.handleWrite
          rw [h1, hh]
        rw [hrun] at ho ⊢
        exact hv.follows_write hm (hf (hv.admins _ hm).own.opened) hfd.symm ho
      · next hgo =>
        rw [if_neg hgo]
        exact hf ho
  rw [dispatch_eq hit] at hopen ⊢
  obtain ⟨hm, hfd⟩ := h.registry.mng i it hit hh
  split at hopen
  · next hgo =>
    rw [if_pos hgo]
    have hrun : w.handleRead it i = w.runMng it.data (Mng.mngRead i) := by
      unfold World.handleRead
      rw [hh]
    rw [hrun] at hopen ⊢
    obtain ⟨ρ₁, h1, -⟩ := h.mngCallback hc hit hh
      (Mng.mngRead_served (h.toCore.conversing hm) hfd.symm (h.admins _ hm).waiting) hheard
    exact hwrite h1.inv (fun now hn hw => h1.owner h.toCore hit (Or.inr hh) hn hw) hopen
      fun ho => h.follows_read hm (.refl _) hfd.symm ho
  · next hgo =>
    rw [if_neg hgo]
    refine hwrite h (fun now hn _ => ?_) hopen fun _ => .refl _
    rw [hit] at hn
    cases hn
    exact ⟨rfl, rfl⟩

theorem unregisterListener_mngMem (w : World) (fd : Option Fd) :
    (w.unregisterListener fd).mngMem = w.mngMem := by
  unfold World.unregisterListener
  cases fd with
  | none => rfl
  | some g =>
    dsimp only
    split <;> rfl

theorem loopTop_mngMem (w : World) : w.loopTop.mngMem = w.mngMem := by
  unfold World.loopTop
  split
  · rfl
  · dsimp only
    split
    · split <;> exact (unregisterListener_mngMem _ _).trans (unregisterListener_mngMem _ _)
    · split <;> rfl

theorem Inv.dispatch_minds (h : Inv τ ρ w) (hc : AllCalm ρ w) (hst : ¬τ.strict) {i : Fd}
    (hm : w.Hosts m) (hm' : (w.dispatch i).Hosts m) : w.Minds (w.dispatch i) m := by
  obtain ⟨ρ', n, h1, -, -⟩ := h.dispatch hc i (fun hs => absurd hs hst) fun hs => absurd hs hst
  have hadm := h.toCore.hosts_iff.mp hm
  by_cases hduty : w.OnDuty i m
  · obtain ⟨it, hit, hh, rfl⟩ := hduty
    cases hh with
    | inl hh => exact absurd rfl (h.books.session_ne (h.registry.socks5 i it hit hh).1 hadm)
    | inr hh =>
      exact .served _ rfl rfl
        (h.dispatch_follows hc hst hit hh h1.inv (h1.inv.toCore.hosts_iff.mp hm'))
  · exact .aside (h1.beside.admins m hadm hduty).2.mem

/-- The next move of the main thread. -/
theorem Inv.loop_minds (h : Inv b.plain ρ w) (hc : AllCalm ρ w) {rd wr : Fd → Bool}
    (hm : w.Hosts m) (hm' : (w.loop rd wr).Hosts m) : w.Minds (w.loop rd wr) m := by
  have hadm := h.toCore.hosts_iff.mp hm
  unfold World.loop at hm' ⊢
  cases hph : w.phase with
  | top => exact .aside (congrFun (loopTop_mngMem w) m)
  | select =>
    dsimp only
    split <;> exact .aside rfl
  | walk i n =>
    rw [hph] at hm'
    dsimp only at hm' ⊢
    split at hm'
    · next hle =>
      rw [if_pos hle]
      cases h.dispatch_minds hc id hm hm' with
      | aside hk => exact .aside hk
      | served c₀ hs hg hf => exact .served c₀ hs hg ⟨hf.since.quiet rfl rfl rfl rfl rfl
          (fun ho => ⟨ho, rfl⟩), hf.idle, hf.drained⟩
    · next hle =>
      rw [if_neg hle]
      exact .aside rfl
  | notify =>
    dsimp only
    cases hn : w.sel.resolutionJobs with
    | nil => exact .aside rfl
    | cons fd rest =>
      obtain ⟨p, hp, -, ρ', h1⟩ := h.blockNotification hc hn
      exact .aside (h1.beside.admins m hadm fun he =>
        h.books.session_ne hp hadm he.symm).2.mem
  | sweep =>
    obtain ⟨ρ', h1⟩ := h.checkTimeouts hc fun p hp l _ => (hc p hp).rest.rest
    exact .aside (h1.stepped.beside.admins m hadm fun hp => h.books.session_ne hp hadm rfl).2.mem
  | exited => exact .aside rfl

/-- Whatever happens next. -/
theorem step_minds (h : Orderly b.plain ρ w) {i : Input} (hm : w.Hosts m)
    (hm' : (w.step i).Hosts m) : w.Minds (w.step i) m := by
  unfold World.step at hm' ⊢
  split at hm'
  · next hr =>
    rw [if_pos hr]
    obtain ⟨h1, hc1⟩ := h.inv.load h.calm hr.1 i
    have hload : ∀ {v : World}, (w.load i).Minds v m → w.Minds v m := fun hv => by
      cases hv with
      | aside hk => exact .aside hk
      | served c₀ hs hg hf => exact .served c₀ hs hg hf
    refine hload ?_
    cases hev : i.event with
    | signal | clock => exact .aside rfl
    | connected fd err =>
      refine .aside ?_
      unfold World.handle
      dsimp only
      split
      · split <;> rfl
      · rfl
    | dnsTake =>
      refine .aside ?_
      show (w.load i).dnsTake.mngMem m = _
      unfold World.dnsTake
      split <;> rfl
    | dnsResolve found =>
      refine .aside ?_
      show ((w.load i).dnsResolve found).mngMem m = _
      unfold World.dnsResolve
      split <;> rfl
    | dnsNotify allocated =>
      refine .aside ?_
      unfold World.handle World.dnsNotify
      dsimp only
      split
      · rfl
      · split <;> rfl
    | interrupted | failed =>
      refine .aside ?_
      unfold World.handle
      dsimp only
      split <;> rfl
    | loop rd wr =>
      rw [hev] at hm'
      exact h1.loop_minds hc1 hm hm'
  · next hr =>
    rw [if_neg hr]
    exact .aside rfl

end Step

/-! ## Runs -/

/-- An authenticated session that waits for a command. -/
structure World.Ready (w : World) (m : Ptr) : Prop where
  hosted : w.Hosts m
  authenticated : (w.mngMem m).authenticated = true
  flushed : (w.mngMem m).out = []
  drained : (w.mngMem m).inBuf.drop (w.mngMem m).inPos = []
  line : (w.mngMem m).line = []

/-- In one step or in many, the session has only gone on. -/
structure World.Heeds (w w' : World) (m : Ptr) : Prop where
  hist : (w.mngMem m).hist <+: (w'.mngMem m).hist
  idle : (w.mngMem m).out = [] → (w'.mngMem m).hist = (w.mngMem m).hist → (w'.mngMem m).out = []
  drained : ((w.mngMem m).out = [] → (w.mngMem m).inBuf.drop (w.mngMem m).inPos = []) →
    (w'.mngMem m).out = [] → (w'.mngMem m).inBuf.drop (w'.mngMem m).inPos = []

/-- The session stays open all the way. -/
def World.Stays (w : World) (m : Ptr) (js : List Input) : Prop :=
  ∀ pre, pre <+: js → (w.run pre).Hosts m

section Run
variable {b : Boot} {ρ : Roster} {w w' w'' : World} {m : Ptr}

theorem World.Minds.heeds (h : w.Minds w' m) : w.Heeds w' m := by
  cases h with
  | aside hk =>
    exact ⟨hk ▸ List.prefix_refl _, fun ho _ => by rw [hk]; exact ho, fun hd => by
      rw [hk]; exact hd⟩
  | served c₀ hs _ hf => exact ⟨hs ▸ hf.since.kept, hs ▸ hf.idle, hs ▸ hf.drained⟩

theorem World.Heeds.trans (h : w.Heeds w' m) (h' : w'.Heeds w'' m) : w.Heeds w'' m := by
  refine ⟨h.hist.trans h'.hist, fun ho hh => ?_, fun hd => h'.drained (h.drained hd)⟩
  have hmid : (w'.mngMem m).hist = (w.mngMem m).hist :=
    (h.hist.eq_of_length_le (hh ▸ h'.hist.length_le)).symm
  exact h'.idle (h.idle ho hmid) (hh.trans hmid.symm)

theorem World.Stays.tail {i : Input} {js : List Input} (h : w.Stays m (i :: js)) :
    (w.step i).Stays m js := fun pre hpre =>
  h (i :: pre) (List.cons_prefix_cons.mpr ⟨rfl, hpre⟩)

theorem World.Stays.head {js : List Input} (h : w.Stays m js) : w.Hosts m := h [] List.nil_prefix

theorem run_heeds : ∀ (js : List Input) {ρ : Roster} {w : World}, Orderly b.plain ρ w →
    w.Stays m js → w.Heeds (w.run js) m
  | [], _, _, _, _ => ⟨List.prefix_refl _, fun ho _ => ho, fun hd => hd⟩
  | i :: js, _, w, h, hs => by
    obtain ⟨ρ', h1⟩ := h.step (h.granted_plain i)
    exact (step_minds h hs.head hs.tail.head).heeds.trans (run_heeds js h1.orderly hs.tail)

/-- One more line has been answered: it was so in one step, and the rest of the
run answered none. -/
theorem run_answers {o : MngObs} : ∀ (js : List Input) {ρ : Roster} {w : World},
    Orderly b.plain ρ w → w.Stays m js →
    ((w.run js).mngMem m).hist = (w.mngMem m).hist ++ [o] →
    ∃ pre i post, js = pre ++ i :: post ∧ ((w.run pre).mngMem m).hist = (w.mngMem m).hist ∧
      (((w.run pre).step i).mngMem m).hist = (w.mngMem m).hist ++ [o]
  | [], _, w, _, _, hh => by
    have := congrArg List.length (show (w.mngMem m).hist = _ from hh)
    simp at this
  | i :: js, _, w, h, hs, hh => by
    obtain ⟨ρ', h1⟩ := h.step (h.granted_plain i)
    have hstep := (step_minds h hs.head hs.tail.head).heeds
    have hrest := run_heeds js h1.orderly hs.tail
    by_cases hsame : ((w.step i).mngMem m).hist = (w.mngMem m).hist
    · obtain ⟨pre, j, post, hjs, h2, h3⟩ := run_answers js h1.orderly hs.tail (hsame ▸ hh)
      exact ⟨i :: pre, j, post, by rw [hjs]; rfl, h2.trans hsame, by rw [← hsame]; exact h3⟩
    · refine ⟨[], i, js, rfl, rfl, ?_⟩
      have hle : ((w.step i).mngMem m).hist <+: (w.mngMem m).hist ++ [o] := hh ▸ hrest.hist
      refine hle.eq_of_length_le ?_
      have hlt : (w.mngMem m).hist.length < ((w.step i).mngMem m).hist.length :=
        Nat.lt_of_le_of_ne hstep.hist.length_le fun he =>
          hsame (hstep.hist.eq_of_length he).symm
      rw [List.length_append]
      exact hlt

/-! ## The line of the client -/

theorem Mng.Since.carried {c₀ c : MCtx} {line r : Bytes} {q : Request}
    (h : Mng.Since c₀.s.hist c₀ c) (hh : c.s.hist = c₀.s.hist ++ [.command line r])
    (hq : understood line = some q) (ha : c₀.s.authenticated = true) (hl : c₀.s.locked = false) :
    (c.g.users, c.g.config, r) = q.outcome c₀.g := by
  have hdrop : c.s.hist.drop c₀.s.hist.length = [.command line r] := by
    rw [hh]
    exact List.drop_left
  have hnews : Mng.news c₀.s.hist c.s = [.line line] := by
    unfold Mng.news
    rw [hdrop]
    rfl
  have hu := h.users
  have hc := h.config
  have hr := h.responses
  rw [hnews] at hu hc hr
  rw [hdrop] at hr
  have hr : r = (Mng.handleLine c₀.s.fd line c₀).s.out := (List.cons.inj hr).1
  have hdone : Carried q c₀ (Mng.handleLine c₀.s.fd line c₀) := handleLine_carried hq ha hl
  rw [hu, hc, hr]
  exact hdone

/-- The line of a request is one line, and short enough. -/
theorem Request.line_gathered {q : Request} (hw : ∀ a ∈ q.arguments, IsWord isspace a)
    (hlen : (q.line ++ [10]).length < commandSize) {before : Bytes} {evs : List (LineEvent UInt8)}
    (hb : gather before = (evs, [])) :
    gather (before ++ (q.line ++ [10])) = (evs ++ [.line q.line], []) := by
  have hplain : ∀ x ∈ q.line, isCr x = false ∧ isLf x = false := fun x hx => by
    rcases Request.line_bytes hw hx with rfl | hx
    · exact ⟨rfl, rfl⟩
    · constructor
      · cases hcr : isCr x with
        | false => rfl
        | true => rw [eq_of_beq hcr] at hx; cases hx
      · cases hlf : isLf x with
        | false => rfl
        | true => rw [eq_of_beq hlf] at hx; cases hx
  have hseg : segments isCr isLf (q.line ++ [10]) = [q.line, []] := by
    have hfilter : (q.line ++ [10]).filter (fun x => !isCr x) = q.line ++ [10] := by
      refine List.filter_eq_self.mpr fun x hx => ?_
      rcases List.mem_append.mp hx with hx | hx
      · rw [(hplain x hx).1]; rfl
      · rw [List.mem_singleton.mp hx]; rfl
    unfold segments
    rw [hfilter, List.splitOnP_append_cons _ _ (by rfl),
      List.splitOnP_eq_singleton fun x hx => (hplain x hx).2]
    rfl
  have hshort : q.line.length < mngLineSize := by
    rw [List.length_append] at hlen
    exact Nat.lt_of_succ_lt hlen
  have hread := @foldl_short _ isCr isLf mngLineSize (q.line ++ [10]) evs []
  rw [modifyHead_nil_append, hseg] at hread
  unfold gather assemble at hb ⊢
  rw [List.foldl_append, hb]
  refine hread fun l hl => ?_
  rcases List.mem_cons.mp hl with rfl | hl
  · exact hshort
  · rw [List.mem_singleton.mp hl]
    decide

/-- In the run the session has been asked for one thing, which is `q`: it was
carried out in one step, as the server stood then, and answered. -/
def World.Executes (w : World) (m : Ptr) (js : List Input) (q : Request) : Prop :=
  ∃ pre i post line r, js = pre ++ i :: post ∧ understood line = some q ∧
    ((w.run pre).mngMem m).hist = (w.mngMem m).hist ∧
    (((w.run pre).step i).mngMem m).hist = (w.mngMem m).hist ++ [.command line r] ∧
    (((w.run pre).step i).g.users, ((w.run pre).step i).g.config, r) = q.outcome (w.run pre).g ∧
    ((w.run js).mngMem m).hist = (w.mngMem m).hist ++ [.command line r] ∧
    ((w.run js).wire m).tx ++ ((w.run js).mngMem m).out.drop ((w.run js).mngMem m).outSent =
      (w.wire m).tx ++ r

theorem Orderly.open (h : Orderly b.plain ρ w) (hm : w.Hosts m) :
    Attended b.plain.tidy b.adminSecret (w.mngCtx m) ∧ Framed (w.mngMem m) (w.wire m) := by
  have ha := h.inv.admins m (h.inv.toCore.hosts_iff.mp hm)
  obtain ⟨k, hk⟩ := ha.own.sock
  have hwire : w.wire m = k := by
    unfold World.wire
    rw [show (w.mngMem m).closedWith = none from ha.own.opened]
    exact congrArg (fun o => Option.getD o Sock.none) hk
  exact ⟨ha, hwire ▸ ha.framed k hk⟩

/-- A session that has nothing to say is not locked. -/
theorem Attended.unlocked {tidy : Prop} {secret : Option Bytes} {c : MCtx}
    (h : Attended tidy secret c) (ho : c.s.out = []) : c.s.locked = false := by
  have hlock := @Mng.standingOf_locked secret c.s.hist
  rw [← h.vetted.standing] at hlock
  have hlock : c.s.locked = true → c.s.closing = true := hlock
  cases hl : c.s.locked with
  | false => rfl
  | true => exact absurd ho (h.waiting.closing (hlock hl))

/-- The session has answered the line of the request, as soon as it has received it. -/
theorem Orderly.answers (h : Orderly b.plain ρ w) {js : List Input} {q : Request}
    (hr : w.Ready m) (hs : w.Stays m js) (hw : ∀ a ∈ q.arguments, IsWord isspace a)
    (hlen : (q.line ++ [10]).length < commandSize)
    (hrx : ((w.run js).wire m).rx = (w.wire m).rx ++ (q.line ++ [10])) :
    ∃ r, ((w.run js).mngMem m).hist = (w.mngMem m).hist ++ [.command q.line r] := by
  obtain ⟨ρ', h'⟩ := h.run_plain js
  have hheeds := run_heeds js h hs
  obtain ⟨-, done, hrx0, hf⟩ := h.open hs.head
  obtain ⟨-, hf'⟩ := h'.open (hs js (List.prefix_refl _))
  -- what the session had read before, and what there is to read now
  rw [hr.drained, List.append_nil] at hrx0
  have hbefore : gather (w.wire m).rx = ((w.mngMem m).hist.map MngObs.event, []) := by
    rw [hrx0, hf.read, hr.line]
  obtain ⟨hpre, hall⟩ := hf'.events_extend (List.prefix_refl _)
  rw [hrx, Request.line_gathered hw hlen hbefore] at hpre hall
  obtain ⟨more, hmore⟩ := hheeds.hist
  rw [← hmore, List.map_append] at hpre hall
  have hp := (List.prefix_append_right_inj _).mp hpre
  cases more with
  | nil =>
    -- it would have nothing to say and nothing to read, so it would have read the line
    rw [List.append_nil] at hmore
    have hout := hheeds.idle hr.flushed hmore.symm
    have he := hall rfl (hheeds.drained (fun _ => hr.drained) hout)
    have hlen := congrArg List.length he
    simp at hlen
  | cons o rest =>
    obtain ⟨ho, hrest⟩ := List.cons_prefix_cons.mp hp
    have hnil : rest = [] := List.map_eq_nil_iff.mp (List.prefix_nil.mp hrest)
    subst hnil
    cases o with
    | command content r =>
      cases ho
      exact ⟨r, hmore.symm⟩
    | overflow r => cases ho

/-- The line of a request is carried out and answered, once. -/
theorem Orderly.executes (h : Orderly b.plain ρ w) {js : List Input} {q : Request}
    (hr : w.Ready m) (hs : w.Stays m js) (hw : ∀ a ∈ q.arguments, IsWord isspace a)
    (hz : ∀ a ∈ q.arguments, (0 : UInt8) ∉ a) (hlen : (q.line ++ [10]).length < commandSize)
    (hrx : ((w.run js).wire m).rx = (w.wire m).rx ++ (q.line ++ [10])) : w.Executes m js q := by
  obtain ⟨r, hgain⟩ := h.answers hr hs hw hlen hrx
  obtain ⟨pre, i, post, hjs, hsame, hstep⟩ := run_answers js h hs hgain
  have hunderstood := Request.understood_line hw hz
  refine ⟨pre, i, post, q.line, r, hjs, hunderstood, hsame, hstep, ?_, hgain, ?_⟩
  · obtain ⟨ρ₁, h1⟩ := h.run_plain pre
    have hpre : pre <+: js := hjs ▸ List.prefix_append _ _
    have hhosts : ((w.run pre).step i).Hosts m := by
      have hlast := hs (pre ++ [i]) ⟨post, by rw [hjs]; simp⟩
      unfold World.run at hlast ⊢
      rwa [List.foldl_append] at hlast
    obtain ⟨ha, -⟩ := h.open hs.head
    obtain ⟨ha1, -⟩ := h1.open (hs pre hpre)
    have hout := (run_heeds pre h fun l hl => hs l (hl.trans hpre)).idle hr.flushed hsame
    -- it stands as it did when it was ready
    have hauth : ((w.run pre).mngMem m).authenticated = true := by
      have h2 : ((w.run pre).mngMem m).standing = (w.mngMem m).standing :=
        ha1.vetted.standing.trans ((congrArg _ hsame).trans ha.vetted.standing.symm)
      exact (congrArg Mng.Standing.authenticated h2).trans hr.authenticated
    cases step_minds h1 (hs pre hpre) hhosts with
    | aside hk =>
      rw [hk, hsame] at hstep
      have hlen := congrArg List.length hstep
      simp at hlen
    | served c₀ hs₀ hg hf =>
      rw [← hg]
      refine hf.since.carried ?_ hunderstood (hs₀ ▸ hauth) (hs₀ ▸ ha1.unlocked hout)
      rw [hs₀, hsame]
      exact hstep
  · obtain ⟨ρ', h'⟩ := h.run_plain js
    obtain ⟨-, done, -, hf⟩ := h.open hs.head
    obtain ⟨-, done', -, hf'⟩ := h'.open (hs js (List.prefix_refl _))
    rw [hf'.sent, hgain, List.flatMap_append, ← hf.sent, hr.flushed, List.drop_nil,
      List.append_nil]
    simp [MngObs.response]

/-- A session that has received what the client sends has carried out the one
request that was meant, with the arguments as they are, exactly when they are
words: none is empty, and none holds a blank or a line end. -/
theorem commands_agree (b : Boot) (is js : List Input) (m : Ptr) (argv : List Str) (bs : Bytes)
    (hb : buildCommand argv commandSize = some bs) (hr : (b.start.run is).Ready m)
    (hs : (b.start.run is).Stays m js)
    (hrx : (((b.start.run is).run js).wire m).rx = ((b.start.run is).wire m).rx ++ bs) :
    (∃ q, requested argv = some q ∧ (b.start.run is).Executes m js q) ↔
      ∀ a ∈ argv.drop 2, IsWord isspace (cstr a) := by
  obtain ⟨ρ, h⟩ := b.orderly is
  obtain ⟨q, hq, rfl, hlen, hargs⟩ := buildCommand_line hb
  constructor
  · intro hdone
    obtain ⟨q', hq', pre, i, post, line, r, -, hline, -⟩ := hdone
    cases Option.some.inj (hq.symm.trans hq')
    intro a ha
    refine understood_arguments hline (cstr a) ?_
    rw [hargs]
    exact List.mem_map_of_mem ha
  · intro hwords
    have hw : ∀ a ∈ q.arguments, IsWord isspace a := by
      rw [hargs]
      intro a ha
      obtain ⟨x, hx, rfl⟩ := List.mem_map.mp ha
      exact hwords x hx
    have hz : ∀ a ∈ q.arguments, (0 : UInt8) ∉ a := by
      rw [hargs]
      intro a ha
      obtain ⟨x, hx, rfl⟩ := List.mem_map.mp ha
      exact zero_notMem_cstr x
    exact ⟨q, hq, h.executes hr hs hw hz hlen hrx⟩

end Run

/-- A server with a secret. -/
def Boot.guarded : Boot := .sample (some (lit "s")) ⟨0, 0, 0, 0⟩

/-- An administrator connects and says the secret. -/
def Input.entrance : List Input :=
  Input.round 1 1 [] ++ Input.round 2 2 (lit "AUTH s\n") ++ Input.round 2 2 []

theorem entrance_ready : (Boot.guarded.start.run Input.entrance).Ready 0 :=
  ⟨⟨2, ⟨opRead, .mng, 0⟩, by decide +kernel, rfl, rfl⟩, by decide +kernel, by decide +kernel,
    by decide +kernel, by decide +kernel⟩

theorem stays_of_takes {w : World} {m : Ptr} {js : List Input} (fd : Fd)
    (h : ((List.range (js.length + 1)).all fun n => ((w.run (js.take n)).sel.fds fd).any fun it =>
      it.handler == .mng && it.data == m) = true) : w.Stays m js := by
  intro pre hpre
  have hlen : pre.length ∈ List.range (js.length + 1) :=
    List.mem_range.mpr (Nat.lt_succ_of_le hpre.length_le)
  have hany := List.all_eq_true.mp h pre.length hlen
  rw [← List.prefix_iff_eq_take.mp hpre] at hany
  cases hit : (w.run pre).sel.fds fd with
  | none => rw [hit] at hany; cases hany
  | some it =>
    rw [hit] at hany
    obtain ⟨h1, h2⟩ := Bool.and_eq_true_iff.mp hany
    exact ⟨fd, it, hit, eq_of_beq h1, eq_of_beq h2⟩

/-- `client user set ana x` -/
theorem commands_agree_sample : ∃ q, requested [lit "user", lit "set", lit "ana", lit "x"] = some q ∧
    (Boot.guarded.start.run Input.entrance).Executes 0 (Input.round 2 2 (lit "USER SET ana x\n")) q :=
  (commands_agree Boot.guarded Input.entrance (Input.round 2 2 (lit "USER SET ana x\n")) 0
    [lit "user", lit "set", lit "ana", lit "x"] (lit "USER SET ana x\n") (by decide) entrance_ready
    (stays_of_takes 2 (by decide +kernel)) (by decide +kernel)).mpr (by
      have hword : ∀ a ∈ [lit "ana", lit "x"], IsWord isspace (cstr a) := by
        intro a ha
        rcases List.mem_cons.mp ha with rfl | ha
        · exact ⟨by decide +kernel, by decide +kernel⟩
        · rw [List.mem_singleton.mp ha]
          exact ⟨by decide +kernel, by decide +kernel⟩
      exact hword)

/-- `client user delete` with a name that holds a line end. -/
def Input.smuggled : List Input :=
  Input.round 2 2 (lit "USER DELETE x\nUSERS\n") ++ Input.round 2 2 [] ++ Input.round 2 2 []

/-- Two commands are executed, and two responses sent. -/
theorem smuggled_command :
    buildCommand [lit "user", lit "delete", lit "x\nUSERS"] commandSize =
      some (lit "USER DELETE x\nUSERS\n") ∧
    (Boot.guarded.start.run Input.entrance).Ready 0 ∧
    (Boot.guarded.start.run Input.entrance).Stays 0 Input.smuggled ∧
    (((Boot.guarded.start.run Input.entrance).run Input.smuggled).wire 0).rx =
      ((Boot.guarded.start.run Input.entrance).wire 0).rx ++ lit "USER DELETE x\nUSERS\n" ∧
    ¬∃ q, requested [lit "user", lit "delete", lit "x\nUSERS"] = some q ∧
      (Boot.guarded.start.run Input.entrance).Executes 0 Input.smuggled q := by
  refine ⟨by decide, entrance_ready, stays_of_takes 2 (by decide +kernel), by decide +kernel, ?_⟩
  rintro ⟨q, -, pre, i, post, line, r, -, -, -, -, -, hh, -⟩
  have hbefore : ((Boot.guarded.start.run Input.entrance).mngMem 0).hist.length = 1 := by
    decide +kernel
  have hafter : (((Boot.guarded.start.run Input.entrance).run Input.smuggled).mngMem 0).hist.length =
      3 := by decide +kernel
  have hlen := congrArg List.length hh
  rw [List.length_append, hbefore, hafter] at hlen
  cases hlen

end Socks5d
