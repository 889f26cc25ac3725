import Socks5d.Ending

/-! # The callbacks the selector makes

Each runs the callback of one object, and ends it when that is what the
callback asks for. `Stepped` is what the main loop may rely on after each. -/
namespace Socks5d
open Ctx Lib.Links

/-- The process is in good order again, nobody but the `busy` objects noticed,
and at most `n` objects were added. -/
structure Stepped (τ : Terms) (busy : Ptr → Prop) (n : Nat) (ρ ρ' : Roster) (w w' : World) : Prop where
  inv : Inv τ ρ' w'
  calm : AllCalm ρ' w'
  beside : Beside busy ρ ρ' w w'
  size : ρ'.act.length ≤ ρ.act.length + n
  kin : n = 0 → ρ'.act.Sublist ρ.act ∧ ρ'.adm.Sublist ρ.adm
  talk : n = 0 → ∀ m, (w.mngMem m).hist <+: (w'.mngMem m).hist
  settings : w'.g.users = w.g.users ∧ w'.g.config = w.g.config ∨
    ∃ m, busy m ∧ Mng.Commanded τ.secret (w.mngMem m).hist (w'.mngMem m).hist

section Stepped
variable {τ : Terms} {busy : Ptr → Prop} {m n : Nat} {ρ ρ' ρ'' : Roster} {w w' w'' : World}

/-- A step of SOCKS sessions. -/
theorem Stepped.socks (h : Inv τ ρ' w') (hc : AllCalm ρ' w') (hb : Beside busy ρ ρ' w w')
    (hk : ρ'.act.Sublist ρ.act ∧ ρ'.adm.Sublist ρ.adm) (hset : w'.settings = w.settings) :
    Stepped τ busy 0 ρ ρ' w w' where
  inv := h
  calm := hc
  beside := hb
  size := hk.1.length_le
  kin _ := hk
  talk _ m := by
    have hm : w'.mngMem = w.mngMem := congrArg (fun t => t.1) hset
    exact ⟨[], by rw [hm, List.append_nil]⟩
  settings := Or.inl ⟨congrArg (fun t => t.2.1) hset, congrArg (fun t => t.2.2) hset⟩

theorem Stepped.refl (h : Inv τ ρ w) (hc : AllCalm ρ w) : Stepped τ busy 0 ρ ρ w w :=
  .socks h hc (.refl _ _ _) ⟨.refl _, .refl _⟩ rfl

/-- A step after another one, if it changes no settings or the first adds nobody. -/
theorem Stepped.andThen (h : Stepped τ busy n ρ ρ' w w') (h' : Stepped τ busy 0 ρ' ρ'' w' w'')
    (hset : n = 0 ∨ w''.g.users = w'.g.users ∧ w''.g.config = w'.g.config) :
    Stepped τ busy n ρ ρ'' w w'' where
  inv := h'.inv
  calm := h'.calm
  beside := h.beside.trans h'.beside
  size := by have := h.size; have := h'.size; omega
  kin hn := by
    obtain ⟨h1, h2⟩ := h.kin hn
    obtain ⟨h3, h4⟩ := h'.kin rfl
    exact ⟨h3.trans h1, h4.trans h2⟩
  talk hn m := (h.talk hn m).trans (h'.talk rfl m)
  settings := by
    have hsame : w''.g.users = w'.g.users ∧ w''.g.config = w'.g.config →
        w''.g.users = w.g.users ∧ w''.g.config = w.g.config ∨
          ∃ m, busy m ∧ Mng.Commanded τ.secret (w.mngMem m).hist (w''.mngMem m).hist := by
      rintro ⟨h1, h2⟩
      rcases h.settings with ⟨h3, h4⟩ | ⟨m, hb, hc⟩
      · exact Or.inl ⟨h1.trans h3, h2.trans h4⟩
      · exact Or.inr ⟨m, hb, hc.mono (List.prefix_refl _) (h'.talk rfl m)⟩
    rcases hset with hn | hset
    · rcases h'.settings with h1 | ⟨m, hb, hc⟩
      · exact hsame h1
      · exact Or.inr ⟨m, hb, hc.mono (h.talk hn m) (List.prefix_refl _)⟩
    · exact hsame hset

theorem Stepped.trans (h : Stepped τ busy 0 ρ ρ' w w') (h' : Stepped τ busy 0 ρ' ρ'' w' w'') :
    Stepped τ busy 0 ρ ρ'' w w'' := h.andThen h' (Or.inl rfl)

theorem Beside.mono {busy' : Ptr → Prop} (h : Beside busy ρ ρ' w w') (hb : ∀ q, busy q → busy' q) :
    Beside busy' ρ ρ' w w' :=
  ⟨fun q hq hn => h.sessions q hq fun he => hn (hb q he),
    fun q hq hn => h.admins q hq fun he => hn (hb q he)⟩

theorem Stepped.mono {busy' : Ptr → Prop} (h : Stepped τ busy n ρ ρ' w w')
    (hb : ∀ q, busy q → busy' q) : Stepped τ busy' n ρ ρ' w w' :=
  { h with
    beside := h.beside.mono hb
    settings := h.settings.imp_right fun ⟨m, hm, hc⟩ => ⟨m, hb m hm, hc⟩ }

end Stepped

/-! ## SOCKS sessions -/

theorem checkAsserts_eq {c : SCtx} (h : Own c) : World.checkAsserts c = c := by
  unfold World.checkAsserts
  rw [h.here.rb.asserted, h.here.wb.asserted]
  rfl

theorem put_settings {w : World} {p : Ptr} {c c' : SCtx} {taken : List Obs} {notices : List Fd}
    (hb : Base w p c taken notices) (hg : Good c c') : (w.put c').settings = w.settings := by
  have hgs : c'.g.still = w.g.still := hg.frame.g.trans (by rw [hb.g])
  exact (congrArg (fun g : Globals => (w.mngMem, g.users, g.config)) hgs :)

theorem without_kin {ρ : Roster} {p : Ptr} :
    (ρ.without p).act.Sublist ρ.act ∧ (ρ.without p).adm.Sublist ρ.adm :=
  ⟨List.erase_sublist, .refl _⟩

/-- A callback of session `p`, and the end of the session if it asks for it. -/
theorem Inv.callback {τ : Terms} {ρ : Roster} {w : World} {p : Ptr} {c : SCtx} {taken : List Obs}
    {notices : List Fd} {r : SCtx × SocksState} (h : Inv τ ρ w)
    (hcalm : ∀ q ∈ ρ.act, q ≠ p → Calm (w.ctx q)) (hp : p ∈ ρ.act)
    (hb : Base w p c taken notices) (ho : Own c) (hg : Good c r.1)
    (hr : Reached τ.strict r.1.view) (hst : r.1.s.stm = some r.2) (hs : Settled r.1) {w' : World}
    (hw : w' = if r.2 = .error ∨ r.2 = .done then (w.put (World.checkAsserts r.1)).socksv5Done p
      else w.put (World.checkAsserts r.1)) :
    ∃ ρ', Stepped τ (· = p) 0 ρ ρ' w w' ∧ (p ∈ ρ'.act → w'.ctx p = r.1) := by
  rw [checkAsserts_eq hg.own] at hw
  subst hw
  obtain ⟨h1, hbeside⟩ := h.put hp hb ho hg hr
  have hothers : ∀ q ∈ ρ.act, q ≠ p → Calm ((w.put r.1).ctx q) := fun q hq hne =>
    (hbeside.sessions q hq hne).2.calm (hcalm q hq hne)
  split
  · next hend =>
    have hst' : ((w.put r.1).ctx p).view.st = some .done ∨
        ((w.put r.1).ctx p).view.st = some .error := by
      rw [put_ctx hb hg]
      rcases hend with he | he
      · exact Or.inr (hst.trans (congrArg some he))
      · exact Or.inl (hst.trans (congrArg some he))
    obtain ⟨h2, hbeside2, hset⟩ := Inv.done (v := ((w.put r.1).ctx p).view) h1.toCore
      (fun q hq _ => h1.reached q hq) hp (h1.reached p hp) (.finished hst') (by rw [List.append_nil])
    refine ⟨ρ.without p, .socks h2 (fun q hq => ?_) (hbeside.trans hbeside2) without_kin
      (hset.trans (put_settings hb hg)), fun hm => absurd hm h.books.actNodup.not_mem_erase⟩
    have hne : q ≠ p := fun he => h.books.actNodup.not_mem_erase (he ▸ hq)
    have hq : q ∈ ρ.act := List.mem_of_mem_erase hq
    exact (hbeside2.sessions q hq hne).2.calm (hothers q hq hne)
  · next hend =>
    refine ⟨ρ, .socks h1 (fun q hq => ?_) hbeside ⟨.refl _, .refl _⟩
      (put_settings hb hg), fun _ => put_ctx hb hg⟩
    by_cases hqp : q = p
    · subst hqp
      rw [put_ctx hb hg]
      refine ⟨hs, fun he => hend (Or.inr ?_), fun he => hend (Or.inl ?_)⟩
      · exact Option.some.inj (hst.symm.trans he)
      · exact Option.some.inj (hst.symm.trans he)
    · exact hothers q hq hqp

/-- A callback that goes on from the session as it is. -/
theorem Inv.runSocks {τ : Terms} {ρ : Roster} {w : World} {p : Ptr} {callback : SCtx → SCtx × SocksState}
    (h : Inv τ ρ w) (hcalm : AllCalm ρ w) (hp : p ∈ ρ.act)
    (hs : Served τ.strict (w.ctx p) (callback (w.ctx p))) :
    ∃ ρ', Stepped τ (· = p) 0 ρ ρ' w (w.runSocks p callback) ∧
      (p ∈ ρ'.act → (w.runSocks p callback).ctx p = (callback (w.ctx p)).1) :=
  h.callback (fun q hq _ => hcalm q hq) hp (.refl w p) (h.own p hp) hs.good
    ((h.reached p hp).moves hs.moves) hs.st hs.rest rfl

/-! ## Notifications -/

theorem Reached.once {strict : Prop} {v : View} (h : Reached strict v) : v.Once := by
  obtain ⟨fd, t, h0⟩ := h
  induction h0 with
  | refl => exact Or.inl rfl
  | tail _ hm ih => exact hm.once ih

theorem tickets_length (l : List Obs) : (tickets l).length = submissions l := by
  unfold tickets submissions
  rw [List.length_filterMap_eq_countP]
  congr 1
  funext o
  cases o with
  | dnsSubmit k => cases k <;> rfl
  | _ => rfl

/-- A session that is notified waits for it, and its only job is resolved. -/
theorem Inv.notified {τ : Terms} {ρ : Roster} {w : World} {p : Ptr} (h : Inv τ ρ w) (hp : p ∈ ρ.act)
    (hn : (w.mem p).clientFd ∈ w.sel.resolutionJobs) :
    (w.mem p).stm = some .requestResolv ∧ ∀ d, w.g.dnsWorker = some d →
      ∃ k ∈ tickets (w.mem p).hist, ∃ job,
        d.resolved[k]? = some (job, (w.mem p).originResolution) := by
  have hcount : 0 < w.sel.resolutionJobs.count (w.mem p).clientFd := List.count_pos_iff.mpr hn
  have htickets := h.jobs.tickets p hp
  have hledger := (h.reached p hp).ledger
  have honce := (h.reached p hp).once
  have hhist : (w.ctx p).view.hist = (w.mem p).hist := rfl
  unfold View.Ledger at hledger
  unfold View.Once at honce
  unfold World.pending at htickets
  rw [hhist] at hledger honce
  have hst : (w.ctx p).view.st = some .requestResolv := by
    by_contra hne
    rw [if_neg hne] at hledger
    omega
  refine ⟨hst, fun d hd => ?_⟩
  rw [if_pos hst] at hledger
  have hone : submissions (w.mem p).hist = 1 := by
    rcases honce with h0 | ⟨h1, -⟩ <;> omega
  have hnojob : w.jobs.countP (fun j => j.target = p) = 0 := by omega
  obtain ⟨d', hd', hmail⟩ := h.ledgers.mail
  cases Option.some.inj (hd.symm.trans hd')
  obtain ⟨k, hk⟩ : ∃ k, k ∈ tickets (w.mem p).hist := by
    have hlen := tickets_length (w.mem p).hist
    rw [hone] at hlen
    exact List.exists_mem_of_length_pos (by omega)
  obtain ⟨j, hj, htarget, -⟩ := hmail.mine p hp k hk
  -- a job that is not resolved yet would still be counted
  have hlt : k < d.resolved.length := by
    by_contra hge
    rw [hmail.posted.order, List.getElem?_append_right (by simpa using hge)] at hj
    have hmem : j ∈ w.jobs := by
      have hwait : j ∈ d.waiting := List.mem_of_getElem? hj
      unfold World.jobs
      rw [hd]
      unfold DnsWorker.waiting at hwait
      rcases List.mem_append.mp hwait with hw | hw
      · refine List.mem_append_right _ ?_
        cases hc : d.current with
        | none => rw [hc] at hw; cases hw
        | some x =>
          obtain ⟨job, done⟩ := x
          rw [hc] at hw
          cases done with
          | false => simpa using hw
          | true => cases hw
      · exact List.mem_append_left _ hw
    have hpos : 0 < w.jobs.countP (fun j => j.target = p) :=
      List.countP_pos_iff.mpr ⟨j, hmem, by simpa using htarget⟩
    omega
  have hr : d.resolved[k]? = some d.resolved[k] := List.getElem?_eq_getElem hlt
  refine ⟨k, hk, d.resolved[k].1, ?_⟩
  rw [hr, hmail.found p hp k hk _ hr]

/-- One turn of the loop of `handle_block_notifications` is a callback of the
session that waits for the result. -/
theorem Inv.notification {τ : Terms} {ρ : Roster} {w : World} {fd : Fd} {rest : List Fd}
    (h : Inv τ ρ w) (hcalm : AllCalm ρ w) (hn : w.sel.resolutionJobs = fd :: rest) :
    ∃ p ∈ ρ.act, (w.mem p).clientFd = fd ∧
      ∃ (c : SCtx) (taken : List Obs) (notices : List Fd) (r : SCtx × SocksState),
        Base w p c taken notices ∧ Own c ∧ Good c r.1 ∧ Reached τ.strict r.1.view ∧
        r.1.s.stm = some r.2 ∧ Settled r.1 ∧ w.handleBlockNotification fd rest =
          if r.2 = .error ∨ r.2 = .done then (w.put (World.checkAsserts r.1)).socksv5Done p
          else w.put (World.checkAsserts r.1) := by
  obtain ⟨p, hp, rfl⟩ := h.jobs.notices fd (by rw [hn]; exact List.mem_cons_self)
  refine ⟨p, hp, rfl, ?_⟩
  obtain ⟨hst, hhad⟩ := h.notified hp (by rw [hn]; exact List.mem_cons_self)
  -- the session in the process that has taken the notification
  let w1 : World := { w with sel := { w.sel with resolutionJobs := rest } }
  obtain ⟨⟨i, hi⟩, -⟩ := (h.own p hp).client
  have hi : w.sel.fds (w.mem p).clientFd = some ⟨i, .socks5, p⟩ := hi
  have hview : (w1.ctx p).view = (w.ctx p).view := rfl
  have ht : Table w1.os w1.sel :=
    ⟨h.registry.table.valid, h.registry.table.opened, h.registry.table.masterR,
      h.registry.table.masterW⟩
  have ho1 : Own (w1.ctx p) :=
    ⟨(h.own p hp).client, (h.own p hp).origin, (h.own p hp).here, ht⟩
  have hc := hcalm p hp
  have hlive : Live (w1.ctx p) :=
    ⟨ho1, (h.reached p hp).sane, (h.reached p hp).ledger,
      hc.rest.congr hview rfl, hc.notDone, hc.notError⟩
  obtain ⟨hg, hm, hst', hs⟩ := @socksv5Block_served τ.strict _ hlive hst
  have hb : Base w p (resolvTaken (w1.ctx p)) [.dnsConsumed (w.mem p).originResolution]
      [(w.mem p).clientFd] :=
    { self := rfl, os := rfl, g := rfl, fds := rfl, still := rfl, origin := rfl, hist := rfl
      plain := Or.inr ⟨_, rfl⟩
      had := fun found hf d hd => by
        cases List.mem_singleton.mp hf
        exact hhad d hd
      jobs := hn
      mine := rfl }
  refine ⟨_, _, _, socksv5Block (w.mem p).clientFd (w1.ctx p), hb,
    ho1.resolvTaken hlive.ledger hst, hg, (h.reached p hp).moves hm, hst', hs, ?_⟩
  have heq : w.handleBlockNotification (w.mem p).clientFd rest =
      w1.runSocks p (socksv5Block (w.mem p).clientFd) := by
    unfold World.handleBlockNotification
    have hi1 : w1.sel.fds (w.mem p).clientFd = some ⟨i, .socks5, p⟩ := hi
    simp only
    rw [show ({ w with sel := { w.sel with resolutionJobs := rest } } : World) = w1 from rfl, hi1]
    rfl
  rw [heq]
  rfl

theorem Inv.blockNotification {τ : Terms} {ρ : Roster} {w : World} {fd : Fd} {rest : List Fd}
    (h : Inv τ ρ w) (hcalm : AllCalm ρ w) (hn : w.sel.resolutionJobs = fd :: rest) :
    ∃ p ∈ ρ.act, (w.mem p).clientFd = fd ∧
      ∃ ρ', Stepped τ (· = p) 0 ρ ρ' w (w.handleBlockNotification fd rest) := by
  obtain ⟨p, hp, hfd, c, taken, notices, r, hb, ho, hg, hr, hst, hs, he⟩ := h.notification hcalm hn
  obtain ⟨ρ', hstep, -⟩ := h.callback (fun q hq _ => hcalm q hq) hp hb ho hg hr hst hs he
  exact ⟨p, hp, hfd, ρ', hstep⟩

end Socks5d
