import Socks5d.Management

/-! # A management session follows from its lines

What a session answers to a line depends on where it stands and on what is
shared, not on how the line arrived. So where it stands after a list of lines,
and what it has answered, follow from the list. -/
namespace Socks5d
open Ctx Lib.CString Lib.Lines
namespace Mng

/-! ## Sessions that stand alike -/

/-- Two sessions that stand alike, before the same shared state. -/
structure Twin (c c' : MCtx) : Prop where
  standing : c'.s.standing = c.s.standing
  users : c'.g.users = c.g.users
  config : c'.g.config = c.g.config
  metrics : c'.g.metrics = c.g.metrics
  secret : c'.g.adminSecret = c.g.adminSecret

/-- They have also been given the same answer. -/
structure Echo (c c' : MCtx) : Prop extends Twin c c' where
  out : c'.s.out = c.s.out

variable {c c' : MCtx} {fd fd' : Fd}

theorem Twin.authenticated (h : Twin c c') : c'.s.authenticated = c.s.authenticated :=
  congrArg Standing.authenticated h.standing

theorem Twin.failures (h : Twin c c') : c'.s.authFailures = c.s.authFailures :=
  congrArg Standing.failures h.standing

theorem Twin.locked (h : Twin c c') : c'.s.locked = c.s.locked :=
  congrArg Standing.locked h.standing

theorem Twin.closing (h : Twin c c') : c'.s.closing = c.s.closing :=
  congrArg Standing.closing h.standing

/-- A change of the flags alone. -/
theorem Twin.modify (h : Twin c c') {f : MngSession → MngSession}
    (hf : (f c'.s).standing = (f c.s).standing) : Twin (c.modify f) (c'.modify f) :=
  ⟨hf, h.users, h.config, h.metrics, h.secret⟩

theorem Twin.setUsers (h : Twin c c') (u : Users) : Twin (setUsers u c) (setUsers u c') :=
  ⟨h.standing, rfl, h.config, h.metrics, h.secret⟩

theorem Twin.setConfig (h : Twin c c') (cfg : Config) :
    Twin { c with g := { c.g with config := some cfg } }
      { c' with g := { c'.g with config := some cfg } } :=
  ⟨h.standing, h.users, rfl, h.metrics, h.secret⟩

theorem queueResponse_echo (h : Twin c c') (text : Bytes) :
    Echo (queueResponse fd text c) (queueResponse fd' text c') :=
  ⟨⟨h.standing, h.users, h.config, h.metrics, h.secret⟩, rfl⟩

theorem handleAuth_echo (h : Twin c c') (cursor : Bytes) :
    Echo (handleAuth fd cursor c) (handleAuth fd' cursor c') := by
  have hset : ∀ b n, Twin (c.modify fun s => { s with authenticated := b, authFailures := n })
      (c'.modify fun s => { s with authenticated := b, authFailures := n }) := fun b n =>
    h.modify (by simp [MngSession.standing, h.locked, h.closing])
  unfold handleAuth
  simp only [h.secret]
  split
  · split
    · exact queueResponse_echo h _
    · split
      · exact queueResponse_echo h _
      · split
        · exact queueResponse_echo (hset true 0) _
        · have hmore : Twin (c.modify fun s => { s with authFailures := s.authFailures + 1 })
              (c'.modify fun s => { s with authFailures := s.authFailures + 1 }) :=
            h.modify (by
              simp [MngSession.standing, h.authenticated, h.locked, h.closing, h.failures])
          simp only [hmore.failures]
          split
          · refine queueResponse_echo (hmore.modify ?_) _
            simp [MngSession.standing, Ctx.modify, h.authenticated, h.failures]
          · exact queueResponse_echo hmore _
  · exact queueResponse_echo h _

theorem handleStats_echo (h : Twin c c') : Echo (handleStats fd c) (handleStats fd' c') := by
  unfold handleStats
  rw [h.metrics]
  split <;> exact queueResponse_echo h _

theorem handleUsers_echo (h : Twin c c') : Echo (handleUsers fd c) (handleUsers fd' c') := by
  unfold handleUsers
  rw [h.users]
  split
  · exact queueResponse_echo h _
  · split
    · exact queueResponse_echo h _
    · split
      · exact queueResponse_echo h _
      · exact ⟨⟨h.standing, h.users, h.config, h.metrics, h.secret⟩, rfl⟩

theorem handleUser_echo (h : Twin c c') (cursor : Bytes) :
    Echo (handleUser fd cursor c) (handleUser fd' cursor c') := by
  unfold handleUser
  simp only [h.users]
  split
  · exact queueResponse_echo h _
  · split
    · exact queueResponse_echo h _
    · split
      · split
        · exact queueResponse_echo (h.setUsers _) _
        · exact queueResponse_echo h _
      · split
        · split
          · exact queueResponse_echo (h.setUsers _) _
          · exact queueResponse_echo h _
        · exact queueResponse_echo h _

theorem handleConfig_echo (h : Twin c c') (cursor : Bytes) :
    Echo (handleConfig fd cursor c) (handleConfig fd' cursor c') := by
  unfold handleConfig handleConfigGet
  simp only [h.config]
  split
  · exact queueResponse_echo h _
  · split
    · exact queueResponse_echo h _
    · split
      · split
        · exact queueResponse_echo h _
        · split <;> exact queueResponse_echo h _
      · split
        · split
          · split
            · exact queueResponse_echo h _
            · split
              · exact queueResponse_echo h _
              · exact queueResponse_echo (h.setConfig _) _
          · exact queueResponse_echo h _
        · exact queueResponse_echo h _

theorem requireAuth_echo (h : Twin c c') :
    (requireAuth fd' c').2 = (requireAuth fd c).2 ∧
      Twin (requireAuth fd c).1 (requireAuth fd' c').1 ∧
      ((requireAuth fd c).2 = false → Echo (requireAuth fd c).1 (requireAuth fd' c').1) := by
  unfold requireAuth
  rw [h.locked, h.authenticated]
  split
  · exact ⟨rfl, (queueResponse_echo h _).toTwin, fun _ => queueResponse_echo h _⟩
  · split
    · exact ⟨rfl, (queueResponse_echo h _).toTwin, fun _ => queueResponse_echo h _⟩
    · exact ⟨rfl, h, fun he => by cases he⟩

/-- Sessions that stand alike answer a line alike, and stand alike after it. -/
theorem handleLine_echo (h : Twin c c') (line : Bytes) :
    Echo (handleLine fd line c) (handleLine fd' line c') := by
  unfold handleLine
  simp only
  split
  · exact queueResponse_echo h _
  · split
    · exact handleAuth_echo h _
    · split
      · split
        · exact queueResponse_echo h _
        · refine queueResponse_echo (h.modify ?_) _
          simp [MngSession.standing, h.authenticated, h.locked, h.failures]
      · obtain ⟨h1, h2, h3⟩ := requireAuth_echo h
        generalize requireAuth fd c = r at h1 h2 h3 ⊢
        generalize requireAuth fd' c' = r' at h1 h2 h3 ⊢
        obtain ⟨d, ok⟩ := r
        obtain ⟨d', ok'⟩ := r'
        cases h1
        cases ok with
        | false => exact h3 rfl
        | true =>
          dsimp only at h2 ⊢
          split
          · exact handleStats_echo h2
          · split
            · exact handleUsers_echo h2
            · split
              · exact handleUser_echo h2 _
              · split
                · exact handleConfig_echo h2 _
                · exact queueResponse_echo h2 _

/-! ## What a list of lines leads to -/

/-- One line after the others: where the session stands, and all its responses. -/
def react (r : MCtx × List Bytes) : LineEvent UInt8 → MCtx × List Bytes
  | .line content =>
    let c := handleLine r.1.s.fd content r.1
    (c, r.2 ++ [c.s.out])
  | .tooLong => (r.1, r.2 ++ [lit "-ERR line too long\n"])

def replay (c : MCtx) (evs : List (LineEvent UInt8)) : MCtx × List Bytes := evs.foldl react (c, [])

theorem replay_snoc (c : MCtx) (evs : List (LineEvent UInt8)) (ev : LineEvent UInt8) :
    replay c (evs ++ [ev]) = react (replay c evs) ev := by
  simp [replay]

/-- The session `c` is what its lines have made of `c₀`. -/
structure Determined (c₀ c : MCtx) : Prop where
  standing : c.s.standing = (replay c₀ (c.s.hist.map MngObs.event)).1.s.standing
  users : c.g.users = (replay c₀ (c.s.hist.map MngObs.event)).1.g.users
  config : c.g.config = (replay c₀ (c.s.hist.map MngObs.event)).1.g.config
  secret : c.g.adminSecret = (replay c₀ (c.s.hist.map MngObs.event)).1.g.adminSecret
  metrics : c.s.closedWith = none →
    c.g.metrics = (replay c₀ (c.s.hist.map MngObs.event)).1.g.metrics
  responses : c.s.hist.map MngObs.response = (replay c₀ (c.s.hist.map MngObs.event)).2

/-- What the session has been asked since its history was `h₀`. -/
def news (h₀ : List MngObs) (s : MngSession) : List (LineEvent UInt8) :=
  (s.hist.drop h₀.length).map MngObs.event

/-- The session `c` is what the lines since `h₀` have made of `c₀`. -/
structure Since (h₀ : List MngObs) (c₀ c : MCtx) : Prop where
  kept : h₀ <+: c.s.hist
  standing : c.s.standing = (replay c₀ (news h₀ c.s)).1.s.standing
  users : c.g.users = (replay c₀ (news h₀ c.s)).1.g.users
  config : c.g.config = (replay c₀ (news h₀ c.s)).1.g.config
  secret : c.g.adminSecret = (replay c₀ (news h₀ c.s)).1.g.adminSecret
  metrics : c.s.closedWith = none → c.g.metrics = (replay c₀ (news h₀ c.s)).1.g.metrics
  responses : (c.s.hist.drop h₀.length).map MngObs.response = (replay c₀ (news h₀ c.s)).2

variable {c₀ : MCtx} {h₀ : List MngObs} {tidy : Prop} {secret : Option Bytes}

theorem Determined.since (h : Determined c₀ c) : Since [] c₀ c :=
  ⟨List.nil_prefix, h.standing, h.users, h.config, h.secret, h.metrics, h.responses⟩

theorem Since.determined (h : Since [] c₀ c) : Determined c₀ c :=
  ⟨h.standing, h.users, h.config, h.secret, h.metrics, h.responses⟩

theorem Since.refl (c : MCtx) : Since c.s.hist c c := by
  have hn : news c.s.hist c.s = [] := by
    unfold news
    rw [List.drop_length]
    rfl
  refine ⟨List.prefix_refl _, ?_, ?_, ?_, ?_, fun _ => ?_, ?_⟩ <;> rw [hn]
  case refine_6 => rw [List.drop_length]; rfl
  all_goals rfl

theorem Since.twin (h : Since h₀ c₀ c) (ho : c.s.closedWith = none) :
    Twin (replay c₀ (news h₀ c.s)).1 c :=
  ⟨h.standing, h.users, h.config, h.metrics ho, h.secret⟩

/-- What no line was answered in. -/
theorem Since.quiet (h : Since h₀ c₀ c) (hst : c'.s.standing = c.s.standing)
    (hh : c'.s.hist = c.s.hist) (hu : c'.g.users = c.g.users) (hc : c'.g.config = c.g.config)
    (hs : c'.g.adminSecret = c.g.adminSecret)
    (hm : c'.s.closedWith = none → c.s.closedWith = none ∧ c'.g.metrics = c.g.metrics) :
    Since h₀ c₀ c' := by
  have hn : news h₀ c'.s = news h₀ c.s := by
    unfold news
    rw [hh]
  refine ⟨hh ▸ h.kept, ?_, ?_, ?_, ?_, fun ho => ?_, ?_⟩ <;> rw [hn]
  · rw [hst]; exact h.standing
  · rw [hu]; exact h.users
  · rw [hc]; exact h.config
  · rw [hs]; exact h.secret
  · obtain ⟨ho', hm⟩ := hm ho
    rw [hm]
    exact h.metrics ho'
  · rw [hh]
    exact h.responses

/-- One more line, answered as the lines before it have it. -/
theorem Since.snoc (h : Since h₀ c₀ c) {o : MngObs} (hh : c'.s.hist = c.s.hist ++ [o])
    {r : MCtx × List Bytes}
    (hr : react (replay c₀ (news h₀ c.s)) o.event = r) (ht : Twin r.1 c')
    (ho : r.2 = (replay c₀ (news h₀ c.s)).2 ++ [o.response]) : Since h₀ c₀ c' := by
  have hdrop : c'.s.hist.drop h₀.length = c.s.hist.drop h₀.length ++ [o] := by
    rw [hh, List.drop_append_of_le_length h.kept.length_le]
  have he : replay c₀ (news h₀ c'.s) = r := by
    unfold news
    rw [hdrop, List.map_append, List.map_singleton, replay_snoc]
    exact hr
  refine ⟨?_, ?_, ?_, ?_, ?_, fun _ => ?_, ?_⟩
  · rw [hh]
    exact h.kept.trans (List.prefix_append _ _)
  all_goals rw [he]
  · exact ht.standing
  · exact ht.users
  · exact ht.config
  · exact ht.secret
  · exact ht.metrics
  · rw [ho, hdrop, List.map_append, h.responses]
    rfl

theorem processChar_since (h : Admin c) (hfd : fd = c.s.fd) (ch : UInt8)
    (hd : Since h₀ c₀ c) : Since h₀ c₀ (processChar fd ch c) := by
  have h1 := h.modify (f := fun s => { s with line := [] }) rfl rfl
  have htwin : Twin (replay c₀ (news h₀ c.s)).1
      (c.modify fun s => { s with line := [] }) :=
    have ht := hd.twin h.opened
    ⟨ht.standing, ht.users, ht.config, ht.metrics, ht.secret⟩
  unfold processChar
  split
  · exact hd
  · split
    · have hr := handleLine_replied h1.own hfd c.s.line
      have hecho := @handleLine_echo _ _ (replay c₀ (news h₀ c.s)).1.s.fd fd
        htwin c.s.line
      have hh : (handleLine fd c.s.line (c.modify fun s => { s with line := [] })).s.hist =
          c.s.hist := congrArg (fun t => t.2.2.2.2.1) hr.input
      simp only
      generalize handleLine fd c.s.line (c.modify fun s => { s with line := [] }) = c1
        at hr hecho hh ⊢
      refine hd.snoc (o := .command c.s.line c1.s.out) (by rw [← hh]; rfl) rfl
        ⟨hecho.standing, hecho.users, hecho.config, hecho.metrics, hecho.secret⟩ ?_
      show _ ++ [_] = _ ++ [c1.s.out]
      rw [hecho.out]
    · split
      · have htext : (queueResponse fd (lit "-ERR line too long\n")
            (c.modify fun s => { s with line := [] })).s.out = lit "-ERR line too long\n" :=
          queueResponse_out _ (by decide)
        refine hd.snoc (o := .overflow _) rfl rfl
          ⟨htwin.standing, htwin.users, htwin.config, htwin.metrics, htwin.secret⟩ ?_
        show _ ++ [_] = _ ++ [_]
        rw [MngObs.response, htext]
      · exact hd.quiet rfl rfl rfl rfl rfl fun ho => ⟨ho, rfl⟩

theorem processLoop_since : ∀ (rest : Bytes) {c : MCtx}, Conversing tidy secret c →
    fd = c.s.fd → c.s.inBuf.drop c.s.inPos = rest → Waiting c.s → Since h₀ c₀ c →
    Since h₀ c₀ (processLoop fd rest c)
  | [], c, _, _, _, _, hd => hd
  | ch :: rest, c, h, hfd, hrest, hw, hd => by
    unfold processLoop
    split
    · next hout =>
      obtain ⟨h1, hw1, hdrop⟩ := processLoop_turn h hfd hrest hout hw
      have h2 := h.own.modify (f := fun s => { s with inPos := s.inPos + 1 }) rfl rfl
      refine processLoop_since rest h1.conversing (hfd.trans h1.good.frame.fd.symm) hdrop hw1 ?_
      exact processChar_since h2.own hfd ch (hd.quiet rfl rfl rfl rfl rfl fun ho => ⟨ho, rfl⟩)
    · exact hd

theorem mngProcessInput_since (h : Conversing tidy secret c) (hfd : fd = c.s.fd)
    (hw : Waiting c.s) (hd : Since h₀ c₀ c) : Since h₀ c₀ (mngProcessInput fd c) := by
  have h1 := processLoop_since _ h hfd rfl hw hd
  unfold mngProcessInput
  simp only
  split
  · exact h1.quiet rfl rfl rfl rfl rfl fun ho => ⟨ho, rfl⟩
  · exact h1

/-- A session that closes keeps what it has done. -/
theorem unregister_since (h : Admin c) (hd : Since h₀ c₀ c) :
    Since h₀ c₀ (unregister c.s.fd c) := by
  obtain ⟨k, hk⟩ := h.sock
  rw [unregister_eq h hk]
  exact hd.quiet rfl rfl rfl rfl rfl fun ho => by cases ho

theorem mngRead_since (h : Conversing tidy secret c) (hfd : fd = c.s.fd) (hw : Waiting c.s)
    (hd : Since h₀ c₀ c) : Since h₀ c₀ (mngRead fd c) := by
  subst hfd
  unfold mngRead
  split
  · next hend =>
    obtain ⟨k, hk⟩ := h.own.sock
    unfold Ctx.recv
    rcases recv_cases hk mngInSize with ⟨o', e, he, ht⟩ | ⟨o', bs, he, -, ht⟩
    · rw [he]
      have hd1 : Since h₀ c₀ { c with os := o' } :=
        hd.quiet rfl rfl rfl rfl rfl fun ho => ⟨ho, rfl⟩
      simp only
      split
      · exact hd1
      · exact unregister_since (h.touch hk ht rfl rfl).conversing.own hd1
    · rw [he]
      have hd1 : Since h₀ c₀ { c with os := o' } :=
        hd.quiet rfl rfl rfl rfl rfl fun ho => ⟨ho, rfl⟩
      cases bs with
      | nil => exact unregister_since (h.own.touch ht).own hd1
      | cons b bs =>
        have hc2 := (h.received hk ht hend).conversing
        exact mngProcessInput_since hc2 rfl ⟨hw.closing, hw.unsent, hw.sent⟩
          (hd.quiet rfl rfl rfl rfl rfl fun ho => ⟨ho, rfl⟩)
  · exact mngProcessInput_since h rfl hw hd

/-- The send loop answers nothing. -/
theorem sendLoop_still : ∀ (n : Nat) (fd : Fd) (c : MCtx), (sendLoop fd n c).1.g = c.g ∧
    (sendLoop fd n c).1.s.standing = c.s.standing ∧ (sendLoop fd n c).1.s.hist = c.s.hist ∧
    (sendLoop fd n c).1.s.closedWith = c.s.closedWith ∧ (sendLoop fd n c).1.sel = c.sel
  | 0, _, _ => ⟨rfl, rfl, rfl, rfl, rfl⟩
  | n + 1, fd, c => by
    unfold sendLoop Ctx.send
    split
    · rcases c.os.send fd (c.s.out.drop c.s.outSent) with ⟨o', e | m⟩
      · exact ⟨rfl, rfl, rfl, rfl, rfl⟩
      · cases m with
        | zero => exact ⟨rfl, rfl, rfl, rfl, rfl⟩
        | succ m => exact sendLoop_still n fd _
    · exact ⟨rfl, rfl, rfl, rfl, rfl⟩

theorem mngWrite_since (h : Conversing tidy secret c) (hfd : fd = c.s.fd) (hw : Waiting c.s)
    (hd : Since h₀ c₀ c) : Since h₀ c₀ (mngWrite fd c) := by
  obtain ⟨h1, hout, hcl, hs, hst⟩ :=
    sendLoop_continued (c.s.out.length - c.s.outSent) h hfd hw.sent (Nat.le_refl _)
  obtain ⟨hg, hstand, hhist, hclosed, -⟩ := sendLoop_still (c.s.out.length - c.s.outSent) fd c
  unfold mngWrite
  generalize sendLoop fd (c.s.out.length - c.s.outSent) c = r
    at h1 hout hcl hs hst hg hstand hhist hclosed ⊢
  obtain ⟨c1, sent⟩ := r
  have hd1 : Since h₀ c₀ c1 := hd.quiet hstand hhist (congrArg Globals.users hg)
    (congrArg Globals.config hg) (congrArg Globals.adminSecret hg)
    fun ho => ⟨hclosed.symm.trans ho, congrArg Globals.metrics hg⟩
  have hfd1 : fd = c1.s.fd := hfd.trans h1.good.frame.fd.symm
  subst hfd1
  have hc1 := h1.conversing
  cases sent with
  | stopped => exact hd1
  | failed => exact unregister_since hc1.own hd1
  | finished =>
    simp only
    split
    · next hend =>
      have h2 := hc1.own.modify (f := fun s => { s with out := [], outSent := 0 }) rfl rfl
      have hd2 : Since h₀ c₀ (c1.modify fun s => { s with out := [], outSent := 0 }) :=
        hd1.quiet rfl rfl rfl rfl rfl fun ho => ⟨ho, rfl⟩
      split
      · exact unregister_since h2.own hd2
      · next hopen =>
        have hd3 := mngProcessInput_since (hc1.flushed hend).conversing rfl
          ⟨fun hc => absurd hc hopen, fun hne => absurd rfl hne, Nat.le_refl _⟩ hd2
        split
        · exact hd3.quiet rfl rfl rfl rfl rfl fun ho => ⟨ho, rfl⟩
        · exact hd3
    · exact hd1

/-! ### From the start -/

theorem Determined.quiet (h : Determined c₀ c) (hst : c'.s.standing = c.s.standing)
    (hh : c'.s.hist = c.s.hist) (hu : c'.g.users = c.g.users) (hc : c'.g.config = c.g.config)
    (hs : c'.g.adminSecret = c.g.adminSecret)
    (hm : c'.s.closedWith = none → c.s.closedWith = none ∧ c'.g.metrics = c.g.metrics) :
    Determined c₀ c' := (h.since.quiet hst hh hu hc hs hm).determined

theorem mngRead_determined (h : Conversing tidy secret c) (hfd : fd = c.s.fd) (hw : Waiting c.s)
    (hd : Determined c₀ c) : Determined c₀ (mngRead fd c) :=
  (mngRead_since h hfd hw hd.since).determined

theorem mngWrite_determined (h : Conversing tidy secret c) (hfd : fd = c.s.fd) (hw : Waiting c.s)
    (hd : Determined c₀ c) : Determined c₀ (mngWrite fd c) :=
  (mngWrite_since h hfd hw hd.since).determined

/-! ## What a session is watched for -/

/-- The session is watched for writing while an answer waits, else for `i`. -/
def Minded (i : Interest) (c : MCtx) : Prop :=
  c.sel.fds c.s.fd = some ⟨if c.s.out = [] then i else opWrite, .mng, c.self⟩

/-- Between two callbacks: what is left to do is what the session is watched for. -/
structure Attentive (c : MCtx) : Prop where
  minded : Minded opRead c
  read : c.s.out = [] → c.s.inBuf.drop c.s.inPos = []

variable {i : Interest}

theorem Minded.congr (h : Minded i c) (hfd : c'.s.fd = c.s.fd) (hout : c'.s.out = c.s.out)
    (hself : c'.self = c.self) (hsel : c'.sel = c.sel) : Minded i c' := by
  unfold Minded at h ⊢
  rw [hfd, hout, hself, hsel]
  exact h

theorem Minded.busy (h : Minded i c) (hout : c.s.out ≠ []) : Minded opRead c := by
  unfold Minded at h ⊢
  rw [if_neg hout] at h ⊢
  exact h

theorem replied_minded {lists : Prop} (h : Replied lists c c') : Minded i c' := by
  unfold Minded
  rw [if_neg h.out, input_fd h.input, h.good.frame.self]
  exact h.item

theorem processChar_minded (h : Admin c) (hfd : fd = c.s.fd) (ch : UInt8) (hm : Minded i c) :
    Minded i (processChar fd ch c) := by
  have h1 := h.modify (f := fun s => { s with line := [] }) rfl rfl
  unfold processChar
  split
  · exact hm
  · split
    · have hr := handleLine_replied h1.own hfd c.s.line
      exact (replied_minded hr).congr rfl rfl rfl rfl
    · split
      · have hr := queueResponse_plain (t := lit "-ERR line too long\n") h1.own hfd
          (by decide)
        exact (replied_minded hr).congr rfl rfl rfl rfl
      · exact hm.congr rfl rfl rfl rfl

theorem processLoop_minded : ∀ (rest : Bytes) {c : MCtx}, Conversing tidy secret c →
    fd = c.s.fd → c.s.inBuf.drop c.s.inPos = rest → Waiting c.s → Minded i c →
    Minded i (processLoop fd rest c)
  | [], c, _, _, _, _, hm => hm
  | ch :: rest, c, h, hfd, hrest, hw, hm => by
    unfold processLoop
    split
    · next hout =>
      obtain ⟨h1, hw1, hdrop⟩ := processLoop_turn h hfd hrest hout hw
      have h2 := h.own.modify (f := fun s => { s with inPos := s.inPos + 1 }) rfl rfl
      exact processLoop_minded rest h1.conversing (hfd.trans h1.good.frame.fd.symm) hdrop hw1
        (processChar_minded h2.own hfd ch (hm.congr rfl rfl rfl rfl))
    · exact hm

/-- The loop stops at an answer, or at the end of what there is. -/
theorem processLoop_drained : ∀ (rest : Bytes) {c : MCtx}, Conversing tidy secret c →
    fd = c.s.fd → c.s.inBuf.drop c.s.inPos = rest → Waiting c.s →
    (processLoop fd rest c).s.out = [] →
      (processLoop fd rest c).s.inBuf.drop (processLoop fd rest c).s.inPos = []
  | [], c, _, _, hrest, _, _ => hrest
  | ch :: rest, c, h, hfd, hrest, hw, he => by
    unfold processLoop at he ⊢
    split at he
    · next hout =>
      obtain ⟨h1, hw1, hdrop⟩ := processLoop_turn h hfd hrest hout hw
      rw [if_pos hout]
      exact processLoop_drained rest h1.conversing (hfd.trans h1.good.frame.fd.symm) hdrop hw1 he
    · next hout => exact absurd he hout

theorem mngProcessInput_minded (h : Conversing tidy secret c) (hfd : fd = c.s.fd)
    (hw : Waiting c.s) (hm : Minded i c) : Minded i (mngProcessInput fd c) := by
  have h1 := processLoop_minded _ h hfd rfl hw hm
  unfold mngProcessInput
  simp only
  split
  · exact h1.congr rfl rfl rfl rfl
  · exact h1

theorem mngProcessInput_drained (h : Conversing tidy secret c) (hfd : fd = c.s.fd)
    (hw : Waiting c.s) (ho : (mngProcessInput fd c).s.out = []) :
    (mngProcessInput fd c).s.inBuf.drop (mngProcessInput fd c).s.inPos = [] := by
  have h1 := processLoop_drained _ h hfd rfl hw
  unfold mngProcessInput at ho ⊢
  simp only at ho ⊢
  split at ho
  · next hend => rw [if_pos hend]; rfl
  · next hend => rw [if_neg hend]; exact h1 ho

theorem unregister_closed (h : Admin c) : (unregister c.s.fd c).s.closedWith ≠ none := by
  obtain ⟨k, hk⟩ := h.sock
  rw [unregister_eq h hk]
  simp

theorem mngRead_attentive (h : Conversing tidy secret c) (hfd : fd = c.s.fd) (hw : Waiting c.s)
    (ha : Attentive c) (ho : (mngRead fd c).s.closedWith = none) : Attentive (mngRead fd c) := by
  subst hfd
  unfold mngRead at ho ⊢
  split at ho
  · next hend =>
    rw [if_pos hend]
    obtain ⟨k, hk⟩ := h.own.sock
    unfold Ctx.recv at ho ⊢
    rcases recv_cases hk mngInSize with ⟨o', e, he, ht⟩ | ⟨o', bs, he, -, ht⟩
    · rw [he] at ho ⊢
      simp only at ho ⊢
      split at ho
      · next hagain =>
        rw [if_pos hagain]
        exact ⟨ha.minded.congr rfl rfl rfl rfl, ha.read⟩
      · exact absurd ho (unregister_closed (h.own.touch ht).own)
    · rw [he] at ho ⊢
      cases bs with
      | nil => exact absurd ho (unregister_closed (h.own.touch ht).own)
      | cons b bs =>
        have hc2 := (h.received hk ht hend).conversing
        have hw2 : Waiting ({ c with os := o' }.modify fun s =>
            { s with inBuf := b :: bs, inPos := 0 }).s := ⟨hw.closing, hw.unsent, hw.sent⟩
        exact ⟨mngProcessInput_minded hc2 rfl hw2 (ha.minded.congr rfl rfl rfl rfl),
          mngProcessInput_drained hc2 rfl hw2⟩
  · next hend =>
    rw [if_neg hend]
    exact ⟨mngProcessInput_minded h rfl hw ha.minded, mngProcessInput_drained h rfl hw⟩

theorem mngWrite_attentive (h : Conversing tidy secret c) (hfd : fd = c.s.fd) (hw : Waiting c.s)
    (hm : Minded opRead c) (hne : c.s.out ≠ []) (ho : (mngWrite fd c).s.closedWith = none) :
    Attentive (mngWrite fd c) := by
  obtain ⟨h1, hout, -, -, -⟩ :=
    sendLoop_continued (c.s.out.length - c.s.outSent) h hfd hw.sent (Nat.le_refl _)
  obtain ⟨-, -, -, -, hsel⟩ := sendLoop_still (c.s.out.length - c.s.outSent) fd c
  unfold mngWrite at ho ⊢
  generalize sendLoop fd (c.s.out.length - c.s.outSent) c = r at h1 hout hsel ho ⊢
  obtain ⟨c1, sent⟩ := r
  have hfd1 : fd = c1.s.fd := hfd.trans h1.good.frame.fd.symm
  subst hfd1
  have hc1 := h1.conversing
  have hm1 : Minded opRead c1 := hm.congr hfd hout h1.good.frame.self hsel
  have hbusy : Attentive c1 := ⟨hm1, fun he => absurd (hout.symm.trans he) hne⟩
  cases sent with
  | stopped => exact hbusy
  | failed => exact absurd ho (unregister_closed hc1.own)
  | finished =>
    simp only at ho ⊢
    split at ho
    · next hend =>
      rw [if_pos hend]
      have hc2 := (hc1.flushed hend).conversing
      split at ho
      · exact absurd ho (unregister_closed hc2.own)
      · next hopen =>
        rw [if_neg hopen]
        have hw2 : Waiting (c1.modify fun s => { s with out := [], outSent := 0 }).s :=
          ⟨fun hc => absurd hc hopen, fun hne => absurd rfl hne, Nat.le_refl _⟩
        have hm2 : Minded opWrite (c1.modify fun s => { s with out := [], outSent := 0 }) := by
          have hne1 : c1.s.out ≠ [] := fun he => hne (hout.symm.trans he)
          unfold Minded at hm1 ⊢
          rw [if_neg hne1] at hm1
          exact hm1
        have hfd2 : c1.s.fd = (c1.modify fun s => { s with out := [], outSent := 0 }).s.fd := rfl
        have hm3 := mngProcessInput_minded hc2 hfd2 hw2 hm2
        have hr3 := mngProcessInput_drained hc2 hfd2 hw2
        have h3 := (mngProcessInput_continued hc2 hfd2 hw2).1
        have hfd3 : c1.s.fd = (mngProcessInput c1.s.fd
            (c1.modify fun s => { s with out := [], outSent := 0 })).s.fd := h3.good.frame.fd.symm
        generalize mngProcessInput c1.s.fd (c1.modify fun s => { s with out := [], outSent := 0 }) =
          c3 at hm3 hr3 h3 hfd3 ⊢
        split
        · next hidle =>
          have hitem := h3.conversing.own.watched hfd3 opRead
          refine ⟨?_, hr3⟩
          show _ = some (Item.mk (if c3.s.out = [] then opRead else opWrite) _ _)
          rw [if_pos hidle]
          exact hitem
        · next hbusy => exact ⟨hm3.busy hbusy, hr3⟩
    · next hend =>
      rw [if_neg hend]
      exact hbusy

end Mng

end Socks5d
