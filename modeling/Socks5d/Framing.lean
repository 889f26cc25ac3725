import Socks5d.Vetting
import Socks5d.Lib.Lines

/-! # Lines in, responses out

`mng_process_input` is suspended whenever a response waits and resumed when it
is gone. However its runs are cut, the bytes it has taken are the lines it has
answered, and what was sent or waits are the responses, in order. -/
namespace Socks5d
open Ctx Lib.Lines

def isCr (x : UInt8) : Bool := x == 13
def isLf (x : UInt8) : Bool := x == 10

def MngObs.event : MngObs → LineEvent UInt8
  | .command content _ => .line content
  | .overflow _ => .tooLong

/-- What the session makes of the bytes it has taken. -/
def gather (bs : Bytes) : List (LineEvent UInt8) × Bytes := assemble isCr isLf mngLineSize bs

/-- `done` is what has been taken of the input, `tx` what has been sent. -/
structure Framing (s : MngSession) (done tx : Bytes) : Prop where
  read : gather done = (s.hist.map MngObs.event, s.line)
  sent : tx ++ s.out.drop s.outSent = s.hist.flatMap MngObs.response
  tooLong : ∀ r, .overflow r ∈ s.hist → r = lit "-ERR line too long\n"

/-- The framing of a session whose connection is `k`. -/
def Framed (s : MngSession) (k : Sock) : Prop :=
  ∃ done, k.rx = done ++ s.inBuf.drop s.inPos ∧ Framing s done k.tx

/-- An open management session in the middle of a callback. -/
structure Conversing (tidy : Prop) (secret : Option Bytes) (c : MCtx) : Prop where
  own : Admin c
  framed : ∀ k, c.os.fds c.s.fd = some k → Framed c.s k
  vetted : Mng.Vetted tidy secret c.s
  names : Stocked tidy c.g.users
  key : c.g.adminSecret = secret

/-- An open management session between two callbacks. -/
structure Attended (tidy : Prop) (secret : Option Bytes) (c : MCtx) : Prop where
  own : Admin c
  framed : ∀ k, c.os.fds c.s.fd = some k → Framed c.s k
  vetted : Mng.Vetted tidy secret c.s
  waiting : Mng.Waiting c.s

/-- From `c` to `c'` the session went on with its conversation, and changed what
is shared only when it was entitled to. -/
structure Continued (tidy : Prop) (secret : Option Bytes) (c c' : MCtx) : Prop where
  good : AdminGood c c'
  conversing : Conversing tidy secret c'
  hist : c.s.hist <+: c'.s.hist
  ruled : c'.g = c.g ∨ Mng.Commanded secret c.s.hist c'.s.hist

section Continued
variable {tidy : Prop} {secret : Option Bytes} {a b c : MCtx}

theorem Mng.Commanded.mono {old old' h h' : List MngObs} (hc : Mng.Commanded secret old h)
    (ho : old' <+: old) (hp : h <+: h') : Mng.Commanded secret old' h' := by
  obtain ⟨pre, line, response, post, he, hpre, hrest⟩ := hc
  obtain ⟨more, rfl⟩ := hp
  exact ⟨pre, line, response, post ++ more, by rw [he]; simp, ho.trans hpre, hrest⟩

theorem Continued.refl (h : Conversing tidy secret c) : Continued tidy secret c c :=
  ⟨.refl h.own, h, List.prefix_refl _, Or.inl rfl⟩

theorem Continued.trans (h : Continued tidy secret a b) (h' : Continued tidy secret b c) :
    Continued tidy secret a c := by
  refine ⟨h.good.trans h'.good, h'.conversing, h.hist.trans h'.hist, ?_⟩
  rcases h'.ruled with h2 | h2
  · rcases h.ruled with h1 | h1
    · exact Or.inl (h2.trans h1)
    · exact Or.inr (h1.mono (List.prefix_refl _) h'.hist)
  · exact Or.inr (h2.mono h.hist (List.prefix_refl _))

/-- A call on the session's descriptor, or a change of its memory, that no one
else can see. -/
theorem Conversing.quiet {c' : MCtx} (h : Conversing tidy secret c) (hg : AdminGood c c')
    (hf : ∀ k, c'.os.fds c'.s.fd = some k → Framed c'.s k)
    (hst : c'.s.standing = c.s.standing) (hh : c'.s.hist = c.s.hist) (hglob : c'.g = c.g) :
    Continued tidy secret c c' :=
  ⟨hg, ⟨hg.own, hf, h.vetted.congr hst hh, by rw [hglob]; exact h.names, by rw [hglob]; exact h.key⟩,
    ⟨[], by rw [hh, List.append_nil]⟩, Or.inl hglob⟩

/-- A call on the session's descriptor that leaves the streams alone. -/
theorem Conversing.touch (h : Conversing tidy secret c) {os' : OS} {k k' : Sock}
    (hk : c.os.fds c.s.fd = some k) (ht : Touched c.os os' c.s.fd k') (hrx : k'.rx = k.rx)
    (htx : k'.tx = k.tx) : Continued tidy secret c { c with os := os' } := by
  refine h.quiet (h.own.touch ht) (fun k2 hk2 => ?_) rfl rfl rfl
  have hk2 : os'.fds c.s.fd = some k2 := hk2
  rw [ht.fds, Function.update_self] at hk2
  cases hk2
  obtain ⟨done, hd, hf⟩ := h.framed k hk
  exact ⟨done, hrx.trans hd, by rw [htx]; exact hf⟩

/-- A new piece of the stream, when all of the last one has been taken. -/
theorem Conversing.received (h : Conversing tidy secret c) {os' : OS} {k : Sock} {bs : Bytes}
    {lost : Bool} (hk : c.os.fds c.s.fd = some k)
    (ht : Touched c.os os' c.s.fd { k with rx := k.rx ++ bs, lost := lost })
    (hend : c.s.inBuf.length ≤ c.s.inPos) :
    Continued tidy secret c (({ c with os := os' } : MCtx).modify fun s =>
      { s with inBuf := bs, inPos := 0 }) := by
  have h1 := h.own.touch ht
  have h2 := h1.own.modify (f := fun s => { s with inBuf := bs, inPos := 0 }) rfl rfl
  refine h.quiet (h1.trans h2) (fun k2 hk2 => ?_) rfl rfl rfl
  have hk2 : os'.fds c.s.fd = some k2 := hk2
  rw [ht.fds, Function.update_self] at hk2
  cases hk2
  obtain ⟨done, hd, hf⟩ := h.framed k hk
  rw [List.drop_of_length_le hend, List.append_nil] at hd
  exact ⟨done, by rw [hd]; rfl, hf.read, hf.sent, hf.tooLong⟩

/-- The response has been sent to its end. -/
theorem Conversing.flushed (h : Conversing tidy secret c) (hend : c.s.outSent = c.s.out.length) :
    Continued tidy secret c (c.modify fun s => { s with out := [], outSent := 0 }) := by
  have h1 := h.own.modify (f := fun s => { s with out := [], outSent := 0 }) rfl rfl
  refine h.quiet h1 (fun k hk => ?_) rfl rfl rfl
  obtain ⟨done, hd, hf⟩ := h.framed k hk
  refine ⟨done, hd, hf.read, ?_, hf.tooLong⟩
  have hs := hf.sent
  rw [hend, List.drop_length] at hs
  exact hs

end Continued

namespace Mng
variable {tidy : Prop} {secret : Option Bytes} {fd : Fd} {c : MCtx}

/-! ## One character -/

/-- An answer, and its entry in the history. -/
theorem answered_framing {c' : MCtx} {content done tx : Bytes} {e : LineEvent UInt8}
    (o : Bytes → MngObs) (hf : Framing c.s done tx) (hout : c.s.out = [])
    {lists : Prop} (hr : Replied lists (c.modify fun s => { s with line := [] }) c')
    (hev : gather content = ((gather done).1 ++ [e], [])) (ho : ∀ r, (o r).event = e)
    (hor : ∀ r, (o r).response = r)
    (hlong : ∀ r, o c'.s.out = .overflow r → r = lit "-ERR line too long\n") :
    Framing { c'.s with hist := c'.s.hist ++ [o c'.s.out] } content tx := by
  have hhist : c'.s.hist = c.s.hist := congrArg (fun t => t.2.2.2.2.1) hr.input
  have hline : c'.s.line = [] := congrArg (fun t => t.2.1) hr.input
  constructor
  · rw [hev, hf.read, hhist, hline, List.map_append, List.map_singleton, ho]
  · have hs := hf.sent
    rw [hout, List.drop_nil, List.append_nil] at hs
    rw [hr.outSent, List.drop_zero, hhist, List.flatMap_append, ← hs]
    simp [hor]
  · intro r hm
    rw [hhist] at hm
    rcases List.mem_append.mp hm with hm | hm
    · exact hf.tooLong r hm
    · exact hlong r (List.mem_singleton.mp hm).symm

/-- One turn of the loop takes one character. -/
theorem processChar_spec (h : Admin c) (hfd : fd = c.s.fd) (ch : UInt8) {done tx : Bytes}
    (hf : Framing c.s done tx) (hout : c.s.out = []) (hn : Stocked tidy c.g.users) :
    AdminGood c (processChar fd ch c) ∧ (processChar fd ch c).os = c.os ∧
      (processChar fd ch c).s.inBuf = c.s.inBuf ∧ (processChar fd ch c).s.inPos = c.s.inPos ∧
      Framing (processChar fd ch c).s (done ++ [ch]) tx ∧
      Stocked tidy (processChar fd ch c).g.users := by
  have hstep : gather (done ++ [ch]) = step isCr isLf mngLineSize (gather done) ch :=
    assemble_snoc done ch
  have hread := hf.read
  have h1 := h.modify (f := fun s => { s with line := [] }) rfl rfl
  unfold processChar
  split
  · next hcr =>
    subst hcr
    refine ⟨.refl h, rfl, rfl, rfl, { hf with read := ?_ }, hn⟩
    rw [hstep, step, if_pos (by decide), hread]
  · next hcr =>
    have hskip : isCr ch = false := by simpa [isCr] using hcr
    split
    · next hlf =>
      subst hlf
      have hr := handleLine_replied h1.own hfd c.s.line
      simp only
      have h2 := hr.good.own.modify
        (f := fun s => { s with hist := s.hist ++ [.command c.s.line s.out] }) rfl rfl
      refine ⟨h1.trans (hr.good.trans h2), hr.os, congrArg (fun t => t.2.2.1) hr.input,
        congrArg (fun t => t.2.2.2.1) hr.input, ?_, hr.names tidy hn⟩
      refine answered_framing (.command c.s.line) hf hout hr (e := .line c.s.line) ?_
        (fun _ => rfl) (fun _ => rfl) (fun r he => by cases he)
      rw [hstep, step, if_neg (by simp [hskip]), if_pos (by decide), hread]
    · next hlf =>
      have hsep : isLf ch = false := by simpa [isLf] using hlf
      rw [step, if_neg (by simp [hskip]), if_neg (by simp [hsep]), hread] at hstep
      split
      · next hlong =>
        rw [if_pos hlong] at hstep
        have hr := queueResponse_plain (t := lit "-ERR line too long\n") h1.own hfd
          (by decide)
        simp only
        have h2 := hr.good.own.modify
          (f := fun s => { s with hist := s.hist ++ [.overflow s.out] }) rfl rfl
        refine ⟨h1.trans (hr.good.trans h2), hr.os, congrArg (fun t => t.2.2.1) hr.input,
          congrArg (fun t => t.2.2.2.1) hr.input, ?_, hr.names tidy hn⟩
        refine answered_framing .overflow hf hout hr (e := .tooLong) ?_
          (fun _ => rfl) (fun _ => rfl) (fun r he => ?_)
        · rw [hstep, hread]
        · cases he
          exact queueResponse_out _ (by decide)
      · next hshort =>
        rw [if_neg hshort] at hstep
        have h2 := h.modify (f := fun s => { s with line := s.line ++ [ch] }) rfl rfl
        exact ⟨h2, rfl, rfl, rfl, { hf with read := hstep }, hn⟩

/-- An answer that was just queued. -/
theorem waiting_of {s : MngSession} (ho : s.out ≠ []) (hs : s.outSent = 0) : Waiting s := by
  have hpos : 0 < s.out.length := List.length_pos_iff.mpr ho
  exact ⟨fun _ => ho, fun _ => by omega, by omega⟩

theorem processChar_vetted (h : Admin c) (hfd : fd = c.s.fd) (ch : UInt8)
    (hv : Vetted tidy secret c.s) (hk : c.g.adminSecret = secret) (hc : c.s.closing = false)
    (hn : Stocked tidy c.g.users) (hw : Waiting c.s) :
    Vetted tidy secret (processChar fd ch c).s ∧ Waiting (processChar fd ch c).s ∧
      c.s.hist <+: (processChar fd ch c).s.hist ∧
      ((processChar fd ch c).g = c.g ∨ Commanded secret c.s.hist (processChar fd ch c).s.hist) ∧
      (processChar fd ch c).g.adminSecret = secret := by
  have h1 := h.modify (f := fun s => { s with line := [] }) rfl rfl
  unfold processChar
  split
  · exact ⟨hv, hw, List.prefix_refl _, Or.inl rfl, hk⟩
  · split
    · have hr := handleLine_replied h1.own hfd c.s.line
      have hst := @handleLine_standing fd (c.modify fun s => { s with line := [] })
        c.s.line
      have hans := handleLine_answered (c := c.modify fun s => { s with line := [] })
        (hv.congr rfl rfl) hk hc hn hr
      have hg := @handleLine_g fd (c.modify fun s => { s with line := [] }) c.s.line
      have hkey : (handleLine fd c.s.line (c.modify fun s => { s with line := [] })).g.adminSecret =
          c.g.adminSecret := (congrArg Globals.adminSecret hr.good.frame.g :)
      have hh : (handleLine fd c.s.line (c.modify fun s => { s with line := [] })).s.hist =
          c.s.hist := congrArg (fun t => t.2.2.2.2.1) hr.input
      simp only
      generalize handleLine fd c.s.line (c.modify fun s => { s with line := [] }) = c1
        at hr hst hans hg hkey hh ⊢
      refine ⟨hv.snoc (o := .command c.s.line c1.s.out) (by rw [← hh]; rfl) hans ?_,
        waiting_of hr.out hr.outSent, ⟨[.command c.s.line c1.s.out], by rw [← hh]; rfl⟩, ?_,
        hkey.trans hk⟩
      · rw [standingOf_snoc, ← hv.standing, ← hk]
        exact hst
      · rcases hg with hg | ⟨ha, hcmd⟩
        · exact Or.inl hg
        · refine Or.inr ⟨c.s.hist, c.s.line, c1.s.out, [], by rw [← hh]; rfl,
            List.prefix_refl _, ?_, hcmd⟩
          rw [← hv.standing]
          exact ha
    · split
      · have hr := queueResponse_plain (t := lit "-ERR line too long\n") h1.own hfd
          (by decide)
        refine ⟨hv.snoc (o := .overflow _) rfl ⟨hc, hr.line tidy hn, fun l r cmd he => (by cases he),
          fun l r he => (by cases he)⟩ ?_, waiting_of hr.out hr.outSent, ⟨[_], rfl⟩, Or.inl rfl, hk⟩
        rw [standingOf_snoc, ← hv.standing]
        rfl
      · exact ⟨hv.congr rfl rfl, ⟨hw.closing, hw.unsent, hw.sent⟩, List.prefix_refl _, Or.inl rfl, hk⟩

/-- One turn of the loop takes one character, when no answer waits. -/
theorem processChar_continued (h : Conversing tidy secret c) (hfd : fd = c.s.fd) (ch : UInt8)
    {k : Sock} {done : Bytes} (hk : c.os.fds c.s.fd = some k)
    (hrx : k.rx = done ++ ch :: c.s.inBuf.drop (c.s.inPos + 1)) (hf : Framing c.s done k.tx)
    (hout : c.s.out = []) (hw : Waiting c.s) :
    Continued tidy secret c
        (processChar fd ch (c.modify fun s => { s with inPos := s.inPos + 1 })) ∧
      Waiting (processChar fd ch (c.modify fun s => { s with inPos := s.inPos + 1 })).s ∧
      (processChar fd ch (c.modify fun s => { s with inPos := s.inPos + 1 })).s.inBuf = c.s.inBuf ∧
      (processChar fd ch (c.modify fun s => { s with inPos := s.inPos + 1 })).s.inPos =
        c.s.inPos + 1 := by
  have h1 := h.own.modify (f := fun s => { s with inPos := s.inPos + 1 }) rfl rfl
  have hf1 : Framing (c.modify fun s => { s with inPos := s.inPos + 1 }).s done k.tx :=
    ⟨hf.read, hf.sent, hf.tooLong⟩
  have hclosing : c.s.closing = false := by
    cases hc : c.s.closing with
    | false => rfl
    | true => exact absurd hout (hw.closing hc)
  obtain ⟨h2, hos, hbuf, hpos, hf2, hn⟩ :=
    processChar_spec h1.own hfd ch hf1 hout h.names
  obtain ⟨hv, hw', hh, hr, hkey⟩ := processChar_vetted h1.own hfd ch
    (h.vetted.congr rfl rfl) h.key hclosing h.names ⟨hw.closing, hw.unsent, hw.sent⟩
  refine ⟨⟨h1.trans h2, ⟨h2.own, fun k' hk' => ?_, hv, hn, hkey⟩, hh, hr⟩, hw', hbuf, hpos⟩
  rw [hos, (h1.trans h2).frame.fd] at hk'
  cases hk.symm.trans hk'
  refine ⟨done ++ [ch], ?_, hf2⟩
  rw [hbuf, hpos]
  show k.rx = _ ++ c.s.inBuf.drop (c.s.inPos + 1)
  rw [hrx, List.append_assoc]
  rfl

/-! ## The loop -/

/-- One turn of the loop. -/
theorem processLoop_turn {ch : UInt8} {rest : Bytes} (h : Conversing tidy secret c)
    (hfd : fd = c.s.fd) (hrest : c.s.inBuf.drop c.s.inPos = ch :: rest) (hout : c.s.out = [])
    (hw : Waiting c.s) :
    Continued tidy secret c
        (processChar fd ch (c.modify fun s => { s with inPos := s.inPos + 1 })) ∧
      Waiting (processChar fd ch (c.modify fun s => { s with inPos := s.inPos + 1 })).s ∧
      (processChar fd ch (c.modify fun s => { s with inPos := s.inPos + 1 })).s.inBuf.drop
        (processChar fd ch (c.modify fun s => { s with inPos := s.inPos + 1 })).s.inPos = rest := by
  obtain ⟨k, hk⟩ := h.own.sock
  obtain ⟨done, hrx, hf⟩ := h.framed k hk
  have hdrop : c.s.inBuf.drop (c.s.inPos + 1) = rest := by
    rw [← List.drop_drop, hrest]; rfl
  rw [hrest, ← hdrop] at hrx
  obtain ⟨h1, hw1, hbuf, hpos⟩ := processChar_continued h hfd ch hk hrx hf hout hw
  exact ⟨h1, hw1, by rw [hbuf, hpos]; exact hdrop⟩

theorem processLoop_continued : ∀ (rest : Bytes) {c : MCtx}, Conversing tidy secret c →
    fd = c.s.fd → c.s.inBuf.drop c.s.inPos = rest → Waiting c.s →
    Continued tidy secret c (processLoop fd rest c) ∧ Waiting (processLoop fd rest c).s
  | [], c, h, _, _, hw => ⟨.refl h, hw⟩
  | ch :: rest, c, h, hfd, hrest, hw => by
    unfold processLoop
    split
    · next hout =>
      obtain ⟨h1, hw1, hdrop⟩ := processLoop_turn h hfd hrest hout hw
      obtain ⟨h2, hw2⟩ := processLoop_continued rest h1.conversing
        (hfd.trans h1.good.frame.fd.symm) hdrop hw1
      exact ⟨h1.trans h2, hw2⟩
    · exact ⟨.refl h, hw⟩

theorem mngProcessInput_continued (h : Conversing tidy secret c) (hfd : fd = c.s.fd)
    (hw : Waiting c.s) : Continued tidy secret c (mngProcessInput fd c) ∧
      Waiting (mngProcessInput fd c).s := by
  obtain ⟨h1, hw1⟩ := processLoop_continued _ h hfd rfl hw
  unfold mngProcessInput
  simp only
  split
  · next hend =>
    have hc1 := h1.conversing
    have h2 := hc1.own.modify (f := fun s => { s with inPos := 0, inBuf := [] }) rfl rfl
    refine ⟨h1.trans (hc1.quiet h2 (fun k hk => ?_) rfl rfl rfl), hw1.closing, hw1.unsent, hw1.sent⟩
    obtain ⟨done, hrx, hf⟩ := hc1.framed k hk
    rw [List.drop_of_length_le hend] at hrx
    exact ⟨done, hrx, hf.read, hf.sent, hf.tooLong⟩
  · exact ⟨h1, hw1⟩

/-! ## The callbacks -/

/-- What a callback leads to: the session goes on, or is unregistered. -/
def Served (tidy : Prop) (secret : Option Bytes) (c c' : MCtx) : Prop :=
  ∃ c1, Continued tidy secret c c1 ∧
    (c' = c1 ∧ Waiting c1.s ∨ c' = unregister c1.s.fd c1)

/-- The effect of unregistering an open session. -/
theorem unregister_eq (h : Admin c) {k : Sock} (hk : c.os.fds c.s.fd = some k) :
    unregister c.s.fd c =
      { self := c.self
        s := { c.s with closedWith := some k }
        os := (c.os.close c.s.fd).free c.self
        sel := c.sel.dropItem c.s.fd
        g := { c.g with
          mngActiveSessions := c.g.mngActiveSessions - 1
          metrics := c.g.metrics.map Metrics.metricsAdminSessionClose } } := by
  obtain ⟨i, hi⟩ := h.item
  have hv := h.table.valid _ _ hi
  simp [unregister, Ctx.selectorUnregisterFd, hv, hi, mngClose, Ctx.modify, hk, Ctx.close,
    Ctx.metrics]

theorem served_unregister {c' : MCtx} (hc : Continued tidy secret c c') (hfd : fd = c.s.fd) :
    Served tidy secret c (unregister fd c') :=
  ⟨c', hc, Or.inr (by rw [hfd, hc.good.frame.fd])⟩

theorem mngRead_served (h : Conversing tidy secret c) (hfd : fd = c.s.fd) (hw : Waiting c.s) :
    Served tidy secret c (mngRead fd c) := by
  unfold mngRead
  split
  · next hend =>
    obtain ⟨k, hk⟩ := h.own.sock
    subst hfd
    unfold Ctx.recv
    rcases recv_cases hk mngInSize with ⟨o', e, he, ht⟩ | ⟨o', bs, he, -, ht⟩
    · rw [he]
      have h1 := h.touch hk ht rfl rfl
      simp only
      split
      · exact ⟨_, h1, Or.inl ⟨rfl, hw.closing, hw.unsent, hw.sent⟩⟩
      · exact served_unregister h1 rfl
    · rw [he]
      cases bs with
      | nil => exact served_unregister (h.touch hk ht (by simp) rfl) rfl
      | cons b bs =>
        have hc2 := h.received hk ht hend
        obtain ⟨h3, hw3⟩ := mngProcessInput_continued hc2.conversing rfl
          ⟨hw.closing, hw.unsent, hw.sent⟩
        exact ⟨_, hc2.trans h3, Or.inl ⟨rfl, hw3⟩⟩
  · obtain ⟨h1, hw1⟩ := mngProcessInput_continued h hfd hw
    exact ⟨_, h1, Or.inl ⟨rfl, hw1⟩⟩

/-- The send loop moves bytes from the response to the connection, and stops
before it is all sent unless it says so. -/
theorem sendLoop_continued : ∀ (n : Nat) {fd : Fd} {c : MCtx}, Conversing tidy secret c →
    fd = c.s.fd → c.s.outSent ≤ c.s.out.length → c.s.out.length - c.s.outSent ≤ n →
    Continued tidy secret c (sendLoop fd n c).1 ∧ (sendLoop fd n c).1.s.out = c.s.out ∧
      (sendLoop fd n c).1.s.closing = c.s.closing ∧
      (sendLoop fd n c).1.s.outSent ≤ c.s.out.length ∧
      ((sendLoop fd n c).2 = .stopped → (sendLoop fd n c).1.s.outSent < c.s.out.length)
  | 0, _, _, h, _, hle, _ => ⟨.refl h, rfl, rfl, hle, fun he => by cases he⟩
  | n + 1, fd, c, h, hfd, hle, hn => by
    subst hfd
    unfold sendLoop
    split
    · next hlt =>
      obtain ⟨k, hk⟩ := h.own.sock
      unfold Ctx.send
      rcases send_cases hk (c.s.out.drop c.s.outSent) with ⟨o', e, he, ht⟩ | ⟨o', m, he, hm, ht⟩
      · rw [he]
        exact ⟨h.touch hk ht rfl rfl, rfl, rfl, hle, fun _ => hlt⟩
      · rw [he]
        cases m with
        | zero => exact ⟨h.touch hk ht rfl (by simp), rfl, rfl, hle, fun he => by cases he⟩
        | succ m =>
          have h1 := h.own.touch ht
          have h2 := h1.own.modify (f := fun s => { s with outSent := s.outSent + (m + 1) }) rfl rfl
          have hc2 : Continued tidy secret c (({ c with os := o' } : MCtx).modify fun s =>
              { s with outSent := s.outSent + (m + 1) }) := by
            refine h.quiet (h1.trans h2) (fun k2 hk2 => ?_) rfl rfl rfl
            have hk2 : o'.fds c.s.fd = some k2 := hk2
            rw [ht.fds, Function.update_self] at hk2
            cases hk2
            obtain ⟨done, hd, hf⟩ := h.framed k hk
            refine ⟨done, hd, hf.read, ?_, hf.tooLong⟩
            show (k.tx ++ (c.s.out.drop c.s.outSent).take (m + 1)) ++
              c.s.out.drop (c.s.outSent + (m + 1)) = _
            rw [List.append_assoc, ← List.drop_drop, List.take_append_drop]
            exact hf.sent
          rw [List.length_drop] at hm
          have hle2 : c.s.outSent + (m + 1) ≤ c.s.out.length := by omega
          obtain ⟨h3, ho, hcl, hs, hst⟩ := sendLoop_continued n hc2.conversing rfl hle2
            (show c.s.out.length - (c.s.outSent + (m + 1)) ≤ n by omega)
          exact ⟨hc2.trans h3, ho, hcl, hs, hst⟩
    · exact ⟨.refl h, rfl, rfl, hle, fun he => by cases he⟩

theorem mngWrite_served (h : Conversing tidy secret c) (hfd : fd = c.s.fd) (hw : Waiting c.s) :
    Served tidy secret c (mngWrite fd c) := by
  obtain ⟨h1, hout, hcl, hs, hst⟩ :=
    sendLoop_continued (c.s.out.length - c.s.outSent) h hfd hw.sent (Nat.le_refl _)
  unfold mngWrite
  generalize sendLoop fd (c.s.out.length - c.s.outSent) c = r at h1 hout hcl hs hst ⊢
  obtain ⟨c1, sent⟩ := r
  have hfd1 : fd = c1.s.fd := hfd.trans h1.good.frame.fd.symm
  have hclosing : c1.s.closing = true → c1.s.out ≠ [] := fun hc => by
    rw [hout]
    exact hw.closing (hcl.symm.trans hc)
  simp only at hout hs hst
  cases sent with
  | stopped =>
    have hlt := hst rfl
    exact ⟨c1, h1, Or.inl ⟨rfl, hclosing, fun _ => by rw [hout]; exact hlt, by rw [hout]; exact hs⟩⟩
  | failed => exact served_unregister h1 hfd
  | finished =>
    simp only
    split
    · next hend =>
      have hc2 := h1.conversing.flushed hend
      have hg2 := h1.trans hc2
      split
      · exact served_unregister hg2 hfd
      · next hopen =>
        have hw2 : Waiting (c1.modify fun s => { s with out := [], outSent := 0 }).s :=
          ⟨fun hc => absurd hc hopen, fun hne => absurd rfl hne, Nat.le_refl _⟩
        obtain ⟨h3, hw3⟩ := mngProcessInput_continued hc2.conversing hfd1 hw2
        have hg3 := hg2.trans h3
        split
        · have hc3 := h3.conversing
          obtain ⟨sel', he, h4⟩ := hc3.own.setInterest (hfd1.trans h3.good.frame.fd.symm) opRead
          rw [he]
          exact ⟨_, hg3.trans (hc3.quiet h4 hc3.framed rfl rfl rfl),
            Or.inl ⟨rfl, hw3.closing, hw3.unsent, hw3.sent⟩⟩
        · exact ⟨_, hg3, Or.inl ⟨rfl, hw3⟩⟩
    · next hend =>
      have hlt : c1.s.outSent < c1.s.out.length := by rw [hout] at hend ⊢; omega
      exact ⟨c1, h1, Or.inl ⟨rfl, hclosing, fun _ => hlt, by rw [hout]; exact hs⟩⟩

end Mng
end Socks5d
