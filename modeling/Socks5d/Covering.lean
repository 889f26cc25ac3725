import Socks5d.Upkeep
import Socks5d.ItemArray
import Socks5d.Descriptors

/-! # The table over whole runs

The management handlers and the server keep what the calls of the selector
keep. Every reachable table is therefore one the array code arrives at, and its
`max_fd` is the largest descriptor in it, so a round leaves none out. -/
namespace Socks5d
open Ctx Buffer

namespace Upkeep

/-! ## The management handlers -/

section Management
variable {P : Selector → Prop} {c : MCtx} {fd : Fd}

theorem queueResponse (hP : Upkeep P) (text : Bytes) (h : P c.sel) :
    P (Mng.queueResponse fd text c).sel := hP.interest fd opWrite h

theorem requireAuth (hP : Upkeep P) (h : P c.sel) : P (Mng.requireAuth fd c).1.sel := by
  unfold Mng.requireAuth
  split
  · exact hP.queueResponse _ h
  · split
    · exact hP.queueResponse _ h
    · exact h

theorem handleAuth (hP : Upkeep P) (cursor : Bytes) (h : P c.sel) :
    P (Mng.handleAuth fd cursor c).sel := by
  unfold Mng.handleAuth
  dsimp only
  split
  · split
    · exact hP.queueResponse _ h
    · split
      · exact hP.queueResponse _ h
      · split
        · exact hP.queueResponse _ h
        · split <;> exact hP.queueResponse _ h
  · exact hP.queueResponse _ h

theorem handleUsers (hP : Upkeep P) (h : P c.sel) : P (Mng.handleUsers fd c).sel := by
  unfold Mng.handleUsers
  split
  · exact hP.queueResponse _ h
  · split
    · exact hP.queueResponse _ h
    · split
      · exact hP.queueResponse _ h
      · exact hP.interest fd opWrite h

theorem handleUser (hP : Upkeep P) (cursor : Bytes) (h : P c.sel) :
    P (Mng.handleUser fd cursor c).sel := by
  unfold Mng.handleUser
  dsimp only
  split
  · exact hP.queueResponse _ h
  · split
    · exact hP.queueResponse _ h
    · split
      · split <;> exact hP.queueResponse _ h
      · split
        · split <;> exact hP.queueResponse _ h
        · exact hP.queueResponse _ h

theorem handleConfig (hP : Upkeep P) (cursor : Bytes) (h : P c.sel) :
    P (Mng.handleConfig fd cursor c).sel := by
  have hget : P (Mng.handleConfigGet fd c).sel := by
    unfold Mng.handleConfigGet
    split <;> exact hP.queueResponse _ h
  unfold Mng.handleConfig
  dsimp only
  split
  · exact hP.queueResponse _ h
  · split
    · exact hP.queueResponse _ h
    · split
      · split
        · exact hP.queueResponse _ h
        · exact hget
      · split
        · split
          · split
            · exact hP.queueResponse _ h
            · split <;> exact hP.queueResponse _ h
          · exact hP.queueResponse _ h
        · exact hP.queueResponse _ h

theorem handleLine (hP : Upkeep P) (line : Bytes) (h : P c.sel) :
    P (Mng.handleLine fd line c).sel := by
  unfold Mng.handleLine
  dsimp only
  split
  · exact hP.queueResponse _ h
  · split
    · exact hP.handleAuth _ h
    · split
      · split <;> exact hP.queueResponse _ h
      · have ha : P (Mng.requireAuth fd c).1.sel := hP.requireAuth h
        generalize Mng.requireAuth fd c = r at ha ⊢
        obtain ⟨c', b⟩ := r
        cases b with
        | false => exact ha
        | true =>
          dsimp only
          split
          · unfold Mng.handleStats
            split <;> exact hP.queueResponse _ ha
          · split
            · exact hP.handleUsers ha
            · split
              · exact hP.handleUser _ ha
              · split
                · exact hP.handleConfig _ ha
                · exact hP.queueResponse _ ha

theorem processLoop (hP : Upkeep P) (rest : Bytes) (h : P c.sel) :
    P (Mng.processLoop fd rest c).sel := by
  have hchar : ∀ (ch : UInt8) (c : MCtx), P c.sel → P (Mng.processChar fd ch c).sel := by
    intro ch c h
    unfold Mng.processChar
    dsimp only
    split
    · exact h
    · split
      · refine hP.handleLine (c := c.modify fun s => { s with line := [] }) _ ?_
        exact h
      · split
        · refine hP.queueResponse (c := c.modify fun s => { s with line := [] }) _ ?_
          exact h
        · exact h
  induction rest generalizing c with
  | nil => exact h
  | cons ch rest ih =>
    unfold Mng.processLoop
    split
    · exact ih (hchar ch _ h)
    · exact h

theorem mngProcessInput (hP : Upkeep P) (h : P c.sel) : P (Mng.mngProcessInput fd c).sel := by
  have hl : P (Mng.processLoop fd (c.s.inBuf.drop c.s.inPos) c).sel := hP.processLoop _ h
  unfold Mng.mngProcessInput
  dsimp only
  split <;> exact hl

theorem mngUnregister (hP : Upkeep P) (h : P c.sel) : P (Mng.unregister fd c).sel := by
  refine hP.unregister h (fun it c => ?_) fd
  unfold Mng.mngClose
  split
  · split <;> rfl
  · rfl
  · rfl
  · rfl

theorem mngRead (hP : Upkeep P) (h : P c.sel) : P (Mng.mngRead fd c).sel := by
  have hr : (c.recv fd mngInSize).1.sel = c.sel := rfl
  unfold Mng.mngRead
  split
  · generalize c.recv fd mngInSize = r at hr ⊢
    obtain ⟨c', e | bs⟩ := r
    · have h1 : P c'.sel := hr ▸ h
      dsimp only
      split
      · exact h1
      · exact hP.mngUnregister h1
    · have h1 : P c'.sel := hr ▸ h
      cases bs with
      | nil => exact hP.mngUnregister h1
      | cons b bs => exact hP.mngProcessInput h1
  · exact hP.mngProcessInput h

theorem sendLoop_sel (fd : Fd) (n : Nat) (c : MCtx) : (Mng.sendLoop fd n c).1.sel = c.sel := by
  induction n generalizing c with
  | zero => rfl
  | succ n ih =>
    unfold Mng.sendLoop
    split
    · have hs : (c.send fd (c.s.out.drop c.s.outSent)).1.sel = c.sel := rfl
      generalize c.send fd (c.s.out.drop c.s.outSent) = r at hs ⊢
      obtain ⟨c', e | k⟩ := r
      · exact hs
      · cases k with
        | zero => exact hs
        | succ k => exact (ih _).trans hs
    · rfl

theorem mngWrite (hP : Upkeep P) (h : P c.sel) : P (Mng.mngWrite fd c).sel := by
  have hs := sendLoop_sel fd (c.s.out.length - c.s.outSent) c
  unfold Mng.mngWrite
  generalize Mng.sendLoop fd (c.s.out.length - c.s.outSent) c = r at hs ⊢
  obtain ⟨c', sent⟩ := r
  have h1 : P c'.sel := hs ▸ h
  cases sent with
  | stopped => exact h1
  | failed => exact hP.mngUnregister h1
  | finished =>
    dsimp only
    split
    · split
      · exact hP.mngUnregister h1
      · have h2 : P (Mng.mngProcessInput fd
            (c'.modify fun s => { s with out := [], outSent := 0 })).sel :=
          hP.mngProcessInput h1
        split
        · exact hP.arm h2 fd opRead
        · exact h2
    · exact h1

end Management

/-! ## The server -/

section Server
variable {P : Selector → Prop} {w : World} {p m : Ptr} {fd : Fd}

theorem socks5LogEvent_sel (c : SCtx) : (socks5LogEvent c).sel = c.sel := by
  unfold socks5LogEvent
  dsimp only
  split <;> rfl

theorem unlink_sel (w : World) (p : Ptr) : (w.unlink p).sel = w.sel := by
  unfold World.unlink
  dsimp only
  split <;> (split <;> rfl)

theorem closeFd (hP : Upkeep P) (fd : Fd) (h : P w.sel) : P (w.closeFd p fd).sel := by
  have hu := hP.unregister (c := w.ctx p) h socksClose_sel fd
  unfold World.closeFd
  generalize (w.ctx p).selectorUnregisterFd socksClose fd = r at hu ⊢
  obtain ⟨c', st⟩ := r
  cases st <;> exact hu

theorem socksv5Done (hP : Upkeep P) (h : P w.sel) : P (w.socksv5Done p).sel := by
  have h1 : P ((w.put (socks5LogEvent (w.ctx p))).unlink p).sel := by
    rw [unlink_sel]
    show P (socks5LogEvent (w.ctx p)).sel
    rw [socks5LogEvent_sel]
    exact h
  unfold World.socksv5Done
  dsimp only
  split
  · exact hP.closeFd _ (hP.closeFd (w := World.metrics _ _) _ h1)
  · exact hP.closeFd (w := World.metrics _ _) _ h1

theorem checkAsserts_sel (c : SCtx) : (World.checkAsserts c).sel = c.sel := by
  unfold World.checkAsserts
  split <;> rfl

theorem runSocks (hP : Upkeep P) {f : SCtx → SCtx × SocksState}
    (hf : ∀ c : SCtx, P c.sel → P (f c).1.sel) (h : P w.sel) : P (w.runSocks p f).sel := by
  have h1 : P (w.put (World.checkAsserts (f (w.ctx p)).1)).sel := by
    show P (World.checkAsserts (f (w.ctx p)).1).sel
    rw [checkAsserts_sel]
    exact hf _ h
  unfold World.runSocks
  dsimp only
  split
  · exact hP.socksv5Done h1
  · exact h1

theorem runMng {f : MCtx → MCtx} (hf : ∀ c : MCtx, P c.sel → P (f c).sel) (h : P w.sel) :
    P (w.runMng m f).sel := by
  have h1 : P (f (w.mngCtx m)).sel := hf _ h
  unfold World.runMng
  dsimp only
  split <;> exact h1

theorem socks5New_sel (w : World) (fd : Fd) : (w.socks5New fd).1.sel = w.sel := by
  unfold World.socks5New
  dsimp only
  split
  · rfl
  · split <;> rfl

theorem socks5Destroy_sel (c : SCtx) : (socks5Destroy c).sel = c.sel := by
  unfold socks5Destroy
  dsimp only
  split
  · split <;> rfl
  · rfl

theorem activeListAdd_sel (w : World) (p : Ptr) : (w.activeListAdd p).sel = w.sel := by
  unfold World.activeListAdd
  dsimp only
  split <;> rfl

theorem socksv5PassiveAccept (hP : Upkeep P) (h : P w.sel) : P w.socksv5PassiveAccept.sel := by
  unfold World.socksv5PassiveAccept
  split
  · exact h
  · next client _ =>
    dsimp only
    split
    · exact h
    · next os _ =>
      split
      · exact h
      · have hn := socks5New_sel { w with os := os } client
        split
        · next he => rw [he] at hn; exact hn ▸ h
        · next w' q he =>
          rw [he] at hn
          have h1 := hP.register client .socks5 opRead q (hn ▸ h : P w'.sel)
          split
          · next he' =>
            rw [he'] at h1
            show P (World.activeListAdd _ _).sel
            rw [activeListAdd_sel]
            exact h1
          · next he' =>
            rw [he'] at h1
            show P (socks5Destroy _).sel
            rw [socks5Destroy_sel]
            exact h1

theorem mngPassiveAccept (hP : Upkeep P) (h : P w.sel) : P w.mngPassiveAccept.sel := by
  unfold World.mngPassiveAccept
  split
  · exact h
  · next client _ =>
    split
    · exact h
    · split
      · exact h
      · next q _ =>
        have h1 := hP.register client .mng opRead q h
        dsimp only
        split <;> next he => rw [he] at h1; exact h1

theorem sweepOne (hP : Upkeep P) (h : P w.sel) : P (w.sweepOne p).sel := by
  have hout : ∀ l r, P (w.timeOut p l r).sel := fun l r =>
    hP.socksv5Done (w := World.put _ _) h
  unfold World.sweepOne
  dsimp only
  split
  · split
    · exact hP.connectingTimeout (c := w.ctx p) h
    · exact h
  · split
    · split
      · exact hout _ _
      · exact h
    · exact h
  · exact h
  · exact h
  · exact h
  all_goals
    split
    · exact hout _ _
    · exact h

theorem sweepFrom (hP : Upkeep P) (n : Nat) (o : Option Ptr) (h : P w.sel) :
    P (World.sweepFrom n o w).sel := by
  induction n generalizing o w with
  | zero => cases o <;> exact h
  | succ n ih =>
    cases o with
    | none => exact h
    | some p => exact ih _ (hP.sweepOne h)

theorem dispatch (hP : Upkeep P) (i : Fd) (h : P w.sel) : P (w.dispatch i).sel := by
  have hread : ∀ it : Item, P (w.handleRead it i).sel := by
    intro it
    unfold World.handleRead
    split
    · exact hP.socksv5PassiveAccept h
    · exact hP.mngPassiveAccept h
    · exact hP.runSocks (fun _ h => hP.socksv5Read h) h
    · exact runMng (fun _ h => hP.mngRead h) h
  have hwrite : ∀ (w : World) (it : Item), P w.sel → P (w.handleWrite it i).sel := by
    intro w it h
    unfold World.handleWrite
    split
    · exact h
    · exact h
    · exact hP.runSocks (fun _ h => hP.socksv5Write h) h
    · exact runMng (fun _ h => hP.mngWrite h) h
  have hturn : ∀ (w : World) (it : Item), P w.sel → P (w.writeTurn it i).sel := by
    intro w it h
    unfold World.writeTurn
    split
    · exact h
    · split
      · exact hwrite _ _ h
      · exact h
  cases hit : w.sel.fds i with
  | none =>
    have he : w.dispatch i = w := by
      unfold World.dispatch
      rw [hit]
    rw [he]
    exact h
  | some it =>
    rw [dispatch_eq hit]
    refine hturn _ it ?_
    split
    · exact hread it
    · exact h

theorem handleBlockNotification (hP : Upkeep P) (fd : Fd) (rest : List Fd) (h : P w.sel) :
    P (w.handleBlockNotification fd rest).sel := by
  have h1 := hP.jobs rest h
  unfold World.handleBlockNotification
  dsimp only
  split
  · unfold World.handleBlock
    split
    · exact hP.runSocks (fun _ h => hP.socksv5Block h) h1
    all_goals exact h1
  · exact h1

theorem unregisterListener (hP : Upkeep P) (o : Option Fd) (h : P w.sel) :
    P (w.unregisterListener o).sel := by
  unfold World.unregisterListener
  split
  · exact h
  · dsimp only
    split
    · exact h
    · next hne =>
      rw [Bool.or_eq_true, not_or, Bool.not_eq_true] at hne
      refine hP.drop hne.1 ?_ h
      rw [Option.isSome_iff_ne_none]
      exact fun hn => hne.2 (by rw [hn]; rfl)

theorem loopTop (hP : Upkeep P) (h : P w.sel) : P w.loopTop.sel := by
  have hrest : ∀ w : World, P w.sel →
      P (if w.draining ∧ w.g.activeSessions = 0 ∧ w.g.mngActiveSessions = 0 then
        { w with phase := .exited } else { w with phase := .select } : World).sel := by
    intro w h
    split <;> exact h
  unfold World.loopTop
  split
  · exact h
  · refine hrest (if w.signalCount = 1 ∧ w.draining = false then _ else w) ?_
    split
    · exact hP.unregisterListener _ (hP.unregisterListener _ h)
    · exact h

theorem loop (hP : Upkeep P) (rd wr : Fd → Bool) (h : P w.sel) : P (w.loop rd wr).sel := by
  unfold World.loop
  split
  · exact hP.loopTop h
  · split
    · exact h
    · exact hP.round _ _ h
  · split
    · exact hP.dispatch _ h
    · exact h
  · split
    · exact hP.handleBlockNotification _ _ h
    · exact h
  · exact hP.sweepFrom _ _ h
  · exact h

theorem dnsNotify (hP : Upkeep P) (allocated : Bool) (h : P w.sel) :
    P (w.dnsNotify allocated).sel := by
  unfold World.dnsNotify
  split
  · exact hP.jobs _ h
  · exact h

theorem step (hP : Upkeep P) (i : Input) (h : P w.sel) : P (w.step i).sel := by
  unfold World.step
  split
  · unfold World.handle
    split
    · exact h
    · exact h
    · split
      · split <;> exact h
      · exact h
    · unfold World.dnsTake
      split <;> exact h
    · unfold World.dnsResolve
      split <;> exact h
    · split
      · exact h
      · exact hP.dnsNotify _ h
    · exact hP.loop (w := w.load i) _ _ h
    · split <;> exact h
    · split <;> exact h
  · exact h

/-- What every call keeps holds of the table in every reachable state. -/
theorem run (hP : Upkeep P) (is : List Input) (h : P w.sel) : P (w.run is).sel := by
  induction is generalizing w with
  | nil => exact h
  | cons i is ih => exact ih (hP.step i h)

end Server
end Upkeep

theorem Boot.upkeep {P : Selector → Prop} (hP : Upkeep P) (h : P selectorNew) (b : Boot)
    (is : List Input) : P (b.start.run is).sel :=
  hP.run is (hP.register b.mngFd .mngListener opRead 0
    (hP.register b.socksFd .socksListener opRead 0 h))

/-! ## The array code -/

/-- The table is one the array code of `selector_new(1024)` arrives at, inside
its array and without asking the allocator for anything. -/
def Selector.Arises (a0 : FdSelector) (s : Selector) : Prop :=
  ∃ ops a sts, a0.calls ops = some (a, sts) ∧ a.Related s ∧ itemsMaxSize < a.fdSize ∧
    .enomem ∉ sts ∧ ∀ op ∈ ops, op.mem = none

section Arises
variable {a a0 : FdSelector} {s : Selector}

theorem FdSelector.calls_snoc {ops : List TableOp} {op : TableOp} {a a1 a2 : FdSelector}
    {sts : List SelectorStatus} {st : SelectorStatus} (h1 : a.calls ops = some (a1, sts))
    (h2 : op.onArray a1 = some (a2, st)) : a.calls (ops ++ [op]) = some (a2, sts ++ [st]) := by
  induction ops generalizing a sts with
  | nil =>
    cases h1
    rw [List.nil_append, FdSelector.calls, h2]
    rfl
  | cons op' ops ih =>
    rw [List.cons_append, FdSelector.calls]
    rw [FdSelector.calls] at h1
    cases hop : op'.onArray a with
    | none => rw [hop] at h1; cases h1
    | some r =>
      obtain ⟨a', st'⟩ := r
      rw [hop] at h1
      obtain ⟨q, hq, he⟩ := Option.map_eq_some_iff.mp h1
      cases he
      dsimp only
      rw [ih hq]
      rfl

/-- One more call. -/
theorem Selector.Arises.call (h : s.Arises a0) (op : TableOp) (hm : op.mem = none) :
    (op.onMap s).1.Arises a0 := by
  obtain ⟨ops, a, sts, hc, hr, hn, hst, hops⟩ := h
  cases op.onArray_outcome hr with
  | outside hw => exact absurd (op.within_of_full (Nat.le_of_lt hn)) hw
  | starved _ hs =>
    exfalso
    cases op with
    | register => exact Nat.lt_asymm (Nat.lt_trans hn hs.2.1) (invalidFd_false hs.1)
    | _ => exact hs
  | done _ _ a' he hr' hle =>
    refine ⟨ops ++ [op], a', sts ++ [(op.onMap s).2], FdSelector.calls_snoc hc he, hr',
      Nat.lt_of_lt_of_le hn hle, ?_, ?_⟩
    · rw [List.mem_append, List.mem_singleton, not_or]
      exact ⟨hst, fun he => op.onMap_ne_enomem s he.symm⟩
    · intro op' hop
      rcases List.mem_append.mp hop with hop | hop
      · exact hops op' hop
      · rw [List.mem_singleton.mp hop]; exact hm

theorem Selector.Arises.upkeep (a0 : FdSelector) : Upkeep (Selector.Arises a0) where
  register fd hd i data h := h.call (.register none fd hd i data) rfl
  interest fd i h := h.call (.setInterest fd i) rfl
  drop := by
    intro s fd hv hi h
    have hc := h.call (.unregister fd) rfl
    obtain ⟨it, hit⟩ := Option.isSome_iff_exists.mp hi
    have he : (TableOp.unregister fd).onMap s = (s.dropItem fd, .success) := by
      simp only [TableOp.onMap, hv, hit, Bool.false_eq_true, if_false]
    rwa [he] at hc
  round := fun _ _ ⟨ops, a, sts, hc, hr, h⟩ => ⟨ops, a, sts, hc, { hr with }, h⟩
  jobs := fun _ ⟨ops, a, sts, hc, hr, h⟩ => ⟨ops, a, sts, hc, { hr with }, h⟩

/-- In every reachable state the table is one that the array of `selector.c`
holds after calls that all stay inside it and never ask for more memory. -/
theorem table_arises (b : Boot) (is : List Input) {mem : Option (Nat → ItemSlot)} {a0 : FdSelector}
    (h : FdSelector.selectorNew mem itemsMaxSize = some a0) :
    ∃ ops a sts, a0.calls ops = some (a, sts) ∧ a.Related (b.start.run is).sel ∧
      .enomem ∉ sts ∧ ∀ op ∈ ops, op.mem = none := by
  obtain ⟨hr, hsize⟩ := FdSelector.selectorNew_spec h
  have h0 : selectorNew.Arises a0 := by
    refine ⟨[], a0, [], rfl, hr, ?_, fun hm => (by cases hm), fun op hop => (by cases hop)⟩
    rw [hsize, nextCapacity_eq (by decide)]
    exact Nat.lt_succ_self _
  obtain ⟨ops, a, sts, hc, hr', -, hst, hops⟩ := b.upkeep (Selector.Arises.upkeep a0) h0 is
  exact ⟨ops, a, sts, hc, hr', hst, hops⟩

/-- With a tunnel open, its two descriptors are in slots of the array. -/
theorem table_arises_tunnel : ∃ a0, FdSelector.selectorNew (some fun _ => .zero) 1024 = some a0 ∧
    ∃ ops a sts, a0.calls ops = some (a, sts) ∧
      a.Related (Boot.open.start.run Input.tunnel).sel ∧ .enomem ∉ sts ∧
      ∀ op ∈ ops, op.mem = none := by
  obtain ⟨a0, h⟩ := FdSelector.selectorNew_some (fun _ => .zero) (Nat.le_refl itemsMaxSize)
  exact ⟨a0, h, table_arises Boot.open Input.tunnel h⟩

end Arises

/-! ## The largest descriptor -/

/-- `max_fd` is the largest descriptor in use, or zero. -/
structure Selector.Topped (s : Selector) : Prop where
  covers : ∀ fd it, s.fds fd = some it → fd ≤ s.maxFd
  reached : s.maxFd = 0 ∨ ∃ it, s.fds s.maxFd = some it

section Topped
variable {s : Selector} {fd : Fd}

/-- The loop of `items_max_fd`, from `m` over the indices `l`. -/
theorem foldl_largest (fds : Fd → Option Item) (l : List Nat) (m : Nat) :
    let n := l.foldl (fun m i => if (fds i).isSome ∧ i > m then i else m) m
    m ≤ n ∧ (∀ i ∈ l, (fds i).isSome → i ≤ n) ∧ (n = m ∨ (fds n).isSome) := by
  induction l generalizing m with
  | nil => exact ⟨Nat.le_refl _, fun i hi => (by cases hi), Or.inl rfl⟩
  | cons i l ih =>
    obtain ⟨h1, h2, h3⟩ := ih (if (fds i).isSome ∧ i > m then i else m)
    rw [List.foldl_cons]
    by_cases hi : (fds i).isSome ∧ i > m
    · simp only [if_pos hi] at h1 h2 h3 ⊢
      refine ⟨Nat.le_trans (Nat.le_of_lt hi.2) h1, fun j hj hs => ?_, Or.inr ?_⟩
      · rcases List.mem_cons.mp hj with rfl | hj
        · exact h1
        · exact h2 j hj hs
      · rcases h3 with h3 | h3
        · rw [h3]; exact hi.1
        · exact h3
    · simp only [if_neg hi] at h1 h2 h3 ⊢
      refine ⟨h1, fun j hj hs => ?_, h3⟩
      rcases List.mem_cons.mp hj with rfl | hj
      · exact Nat.le_trans (Nat.le_of_not_lt fun hlt => hi ⟨hs, hlt⟩) h1
      · exact h2 j hj hs

theorem Selector.Topped.drop (h : s.Topped) (fd : Fd) : (s.dropItem fd).Topped := by
  obtain ⟨-, hcov, htop⟩ := foldl_largest (Function.update s.fds fd none)
    (List.range (s.maxFd + 1)) 0
  refine ⟨fun g it hg => ?_, htop.imp id fun hs => Option.isSome_iff_exists.mp hs⟩
  have hne : g ≠ fd := by
    intro hgf
    rw [hgf, dropItem_self] at hg
    cases hg
  have hold : s.fds g = some it := by rwa [dropItem_other hne] at hg
  refine hcov g (List.mem_range.mpr (Nat.lt_succ_iff.mpr (h.covers g it hold))) ?_
  rw [Function.update_of_ne hne, hold]
  rfl

/-- An item put in its place, with the maximum raised to it if need be. -/
theorem Selector.Topped.put (h : s.Topped) (fd : Fd) (it : Item) :
    Selector.Topped { s with
      fds := Function.update s.fds fd (some it), maxFd := if fd > s.maxFd then fd else s.maxFd } := by
  refine ⟨fun g jt hg => ?_, ?_⟩
  · by_cases hgf : g = fd
    · rw [hgf]
      dsimp only
      split
      · exact Nat.le_refl _
      · next hle => exact Nat.le_of_not_lt hle
    · dsimp only at hg ⊢
      rw [Function.update_of_ne hgf] at hg
      have hle := h.covers g jt hg
      split
      · next hlt => exact Nat.le_trans hle (Nat.le_of_lt hlt)
      · exact hle
  · dsimp only
    split
    · exact Or.inr ⟨it, Function.update_self _ _ _⟩
    · rcases h.reached with h0 | ⟨jt, hj⟩
      · exact Or.inl h0
      · by_cases hf : s.maxFd = fd
        · exact Or.inr ⟨it, by rw [hf, Function.update_self]⟩
        · exact Or.inr ⟨jt, by rw [Function.update_of_ne hf, hj]⟩

theorem Selector.Topped.register (h : s.Topped) (fd : Fd) (hd : Handler) (i : Interest)
    (data : Ptr) : (s.selectorRegister fd hd i data).1.Topped := by
  unfold selectorRegister
  split
  · exact h
  · split
    · exact h
    · exact ⟨(h.put fd ⟨i, hd, data⟩).covers, (h.put fd ⟨i, hd, data⟩).reached⟩

theorem Selector.Topped.interest (h : s.Topped) (fd : Fd) (i : Interest) :
    (s.selectorSetInterest fd i).1.Topped := by
  unfold selectorSetInterest
  split
  · exact h
  · split
    · exact h
    · next it hit =>
      have hmax : (if fd > s.maxFd then fd else s.maxFd) = s.maxFd :=
        if_neg (Nat.not_lt.mpr (h.covers fd it hit))
      have hput := h.put fd { it with interest := i }
      rw [hmax] at hput
      exact ⟨hput.covers, hput.reached⟩

theorem Selector.Topped.upkeep : Upkeep Selector.Topped where
  register fd hd i data h := h.register fd hd i data
  interest fd i h := h.interest fd i
  drop _ _ h := h.drop _
  round _ _ h := ⟨h.covers, h.reached⟩
  jobs _ h := ⟨h.covers, h.reached⟩

end Topped

/-- In every reachable state `max_fd` is the largest registered descriptor, so
`pselect` asks for every one of them, and the walk that follows comes past it: a
descriptor is ready in the round when its interest and the network say so. -/
theorem rounds_cover (b : Boot) (is : List Input) :
    (b.start.run is).sel.Topped ∧
    ((b.start.run is).Running → (b.start.run is).phase = .select →
      ∀ (i : Input) (rd wr : Fd → Bool), i.event = .loop rd wr →
        ((b.start.run is).step i).phase = .walk 0 (b.start.run is).sel.maxFd ∧
        ∀ fd it, (b.start.run is).sel.fds fd = some it →
          ((b.start.run is).step i).sel.fds fd = some it ∧
          ((b.start.run is).step i).sel.slaveR fd = (it.interest.read && rd fd) ∧
          ((b.start.run is).step i).sel.slaveW fd = (it.interest.write && wr fd &&
            ((b.start.run is).os.fds fd).any fun k => k.conn != .inProgress)) := by
  obtain ⟨ρ, h⟩ := b.orderly is
  have htop : (b.start.run is).sel.Topped :=
    b.upkeep Selector.Topped.upkeep ⟨fun fd it hf => (by cases hf), Or.inl rfl⟩ is
  refine ⟨htop, fun hr hph i rd wr hi => ?_⟩
  have ht := h.inv.registry.table
  generalize b.start.run is = w at ht htop hr hph
  have hstep : w.step i = { (w.load i).pselect rd wr with phase := .walk 0 w.sel.maxFd } := by
    have hbad : (w.load i).badDescriptor = false := ht.noBadDescriptor
    have hsel : (w.load i).phase = .select := hph
    rw [World.step, if_pos hr, hi]
    show (w.load i).loop rd wr = _
    unfold World.loop
    rw [hsel]
    dsimp only
    rw [if_neg (by rw [hbad]; decide)]
    rfl
  rw [hstep]
  refine ⟨rfl, fun fd it hit => ⟨hit, ?_, ?_⟩⟩
  · have hr : w.sel.masterR fd = it.interest.read := by rw [ht.masterR, hit]; rfl
    show (decide (fd ≤ w.sel.maxFd) && w.sel.masterR fd && rd fd) = _
    rw [decide_eq_true (htop.covers fd it hit), hr, Bool.true_and]
  · have hw : w.sel.masterW fd = it.interest.write := by rw [ht.masterW, hit]; rfl
    show (decide (fd ≤ w.sel.maxFd) && w.sel.masterW fd && wr fd &&
      ((w.os.fds fd).map fun k => k.conn != .inProgress).getD false) = _
    rw [decide_eq_true (htop.covers fd it hit), hw, Bool.true_and]
    cases w.os.fds fd <;> rfl

/-- With a tunnel open and a client waiting, the round starts over all four
descriptors and finds the listener. -/
theorem rounds_cover_tunnel :
    let w := Boot.open.start.run (Input.tunnel ++ [.turn [] [] 0])
    (w.step (.turn [0] [] 0)).phase = .walk 0 w.sel.maxFd ∧
      (w.step (.turn [0] [] 0)).sel.slaveR 0 = true := by
  have hcover := (rounds_cover Boot.open (Input.tunnel ++ [.turn [] [] 0])).2
  have hrun : (Boot.open.start.run (Input.tunnel ++ [.turn [] [] 0])).Running := by decide +kernel
  have hphase : (Boot.open.start.run (Input.tunnel ++ [.turn [] [] 0])).phase = .select := by
    decide +kernel
  have hitem : (Boot.open.start.run (Input.tunnel ++ [.turn [] [] 0])).sel.fds 0 =
      some ⟨opRead, .socksListener, 0⟩ := by decide +kernel
  generalize Boot.open.start.run (Input.tunnel ++ [.turn [] [] 0]) = w at hcover hrun hphase hitem ⊢
  obtain ⟨hw, hfds⟩ := hcover hrun hphase (.turn [0] [] 0) _ _ rfl
  exact ⟨hw, (hfds 0 _ hitem).2.1⟩

end Socks5d
