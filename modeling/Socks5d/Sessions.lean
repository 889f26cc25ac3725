import Socks5d.Running

/-! # The sessions of a run

Every session of a run came about by its own moves, and one that ended was
closed by the rules. -/
namespace Socks5d
open Ctx

/-- The terms under which nothing is taken for granted. -/
def Boot.plain (b : Boot) : Terms where
  inherited := b.others
  strict := False
  fair := fun v _ _ => v.Rest
  tidy := b.Tidy
  secret := b.adminSecret
  prompt := False

theorem Boot.plain_fits (b : Boot) : b.Fits b.plain := ⟨rfl, rfl, Iff.rfl⟩

/-- A session of the process: a live one, or what is kept of one that ended. -/
inductive World.Session (w : World) : View → Prop
  | live {p : Ptr} : w.Serves p → Session w (w.ctx p).view
  | ended {e : Ended} : e ∈ w.ended → Session w e.view

section Run
variable {τ : Terms} {ρ : Roster} {w : World} {v : View}

/-- A session that waits is what the plain terms take it to be. -/
theorem Orderly.granted_plain {b : Boot} (h : Orderly b.plain ρ w) (i : Input) :
    b.plain.Granted w i := fun _ =>
  ⟨False.elim, fun _ _ _ _ p hp _ _ => (h.calm p (h.inv.serves_iff.mp hp)).rest.rest, False.elim⟩

theorem Orderly.run_plain {b : Boot} : ∀ (is : List Input) {ρ : Roster} {w : World},
    Orderly b.plain ρ w → ∃ ρ', Orderly b.plain ρ' (w.run is)
  | [], ρ, _, h => ⟨ρ, h⟩
  | i :: is, _, w, h => by
    obtain ⟨ρ', h1⟩ := h.step (h.granted_plain i)
    exact h1.orderly.run_plain (w := w.step i) is

/-- Every state of every run is in good order. -/
theorem Boot.orderly (b : Boot) (is : List Input) : ∃ ρ, Orderly b.plain ρ (b.start.run is) :=
  (b.start_orderly b.plain_fits).run_plain is

theorem Reached.induct {strict : Prop} {P : View → Prop} (h0 : ∀ fd t, P (.fresh fd t))
    (hm : ∀ {v v' : View}, v.Sane → P v → Move strict v v' → P v') (h : Reached strict v) : P v := by
  obtain ⟨fd, t, hr⟩ := h
  have hboth : v.Sane ∧ P v := by
    induction hr with
    | refl => exact ⟨fresh_sane fd t, h0 fd t⟩
    | tail _ hmove ih => exact ⟨hmove.sane ih.1, hm ih.1 ih.2 hmove⟩
  exact hboth.2

/-! ## Sessions that ended -/

/-- What the close code adds to a history. -/
@[simp] def Obs.closing : Obs → Bool
  | .timedOut _ _ | .logged _ | .released => true
  | _ => false

/-- The end of the history of a session that ended as `u`. -/
inductive Final (fair : View → Limit → Int → Prop) (u : View) : List Obs → Prop
  | intro {why : List Obs} (t : Int) (reason : Option FailureReason) : Ending fair u why →
      Final fair u (why ++ (u.lastRecord t reason).toList.map .logged ++ [.released])

theorem Final.closing {fair : View → Limit → Int → Prop} {u : View} {l : List Obs}
    (h : Final fair u l) : ∀ o ∈ l, o.closing = true := by
  obtain ⟨t, reason, he⟩ := h
  intro o ho
  simp only [List.mem_append, List.mem_map, List.mem_singleton] at ho
  rcases ho with (ho | ⟨r, -, rfl⟩) | rfl
  · cases he with
    | finished => cases ho
    | timedOut => rw [List.mem_singleton.mp ho]; rfl
  · rfl
  · rfl

@[simp] theorem filed_hist (l : List Obs) (u : View) : (u.filed l).hist = u.hist ++ l := rfl

theorem Final.mem {fair : View → Limit → Int → Prop} {u : View} {l : List Obs} {o : Obs}
    (h : Final fair u l) (ho : o.closing = false) : o ∈ (u.filed l).hist ↔ o ∈ u.hist := by
  rw [filed_hist, List.mem_append]
  refine ⟨fun hm => hm.resolve_right fun hl => ?_, Or.inl⟩
  rw [h.closing o hl] at ho
  cases ho

theorem Closed.final {e : Ended} (h : Closed τ e) :
    ∃ u l, Reached τ.strict u ∧ Final τ.fair u l ∧ e.view = u.filed l := by
  obtain ⟨u, why, t, reason, hr, he, hv⟩ := h
  exact ⟨u, _, hr, .intro t reason he, hv⟩

/-- A live session waits for the selector; one that ended was closed by the rules. -/
theorem Orderly.session (h : Orderly τ ρ w) (hs : w.Session v) :
    (∃ p, w.Serves p ∧ v = (w.ctx p).view ∧ Reached τ.strict v ∧ Live (w.ctx p)) ∨
    ∃ e ∈ w.ended, v = e.view ∧ ∃ u l, Reached τ.strict u ∧ Final τ.fair u l ∧ v = u.filed l := by
  cases hs with
  | @live p hp =>
    have ha := h.inv.serves_iff.mp hp
    have hsound := h.inv.sound ha
    exact Or.inl ⟨p, hp, rfl, hsound.reached, hsound.live (h.calm p ha)⟩
  | ended he => exact Or.inr ⟨_, he, rfl, (h.inv.ended _ he).final⟩

/-- What holds of all that moves lead to holds of every session of a run, if
the close code does not spoil it. -/
theorem Orderly.every (h : Orderly τ ρ w) (hs : w.Session v) {P : View → Prop}
    (hreach : ∀ {u}, Reached τ.strict u → P u)
    (hfiled : ∀ {u l}, Reached τ.strict u → Final τ.fair u l → P u → P (u.filed l)) : P v := by
  rcases h.session hs with ⟨p, -, -, hr, -⟩ | ⟨e, -, -, u, l, hr, hf, rfl⟩
  · exact hreach hr
  · exact hfiled hr hf (hreach hr)

end Run

/-! ## A run to look at -/

/-- A server whose two listeners are its only descriptors. -/
def Boot.sample (secret : Option Bytes) (config : Config) : Boot where
  users := []
  adminSecret := secret
  config := config
  now := 0
  nofile := 64
  others := fun _ => false
  socksFd := 0
  mngFd := 1
  fds_ne := by decide
  socksFd_free := rfl
  mngFd_free := rfl
  socksFd_valid := rfl
  mngFd_valid := rfl

/-- A move of the main thread: what the network is ready for, what it delivers,
and how much it takes. -/
def Input.turn (ready : List Fd) (bs : Bytes) (room : Nat) : Input where
  event := .loop (fun fd => ready.contains fd) (fun fd => ready.contains fd)
  answers := fun _ => { bytes := bs }
  sendAnswers := fun _ => { count := room }

/-- A turn of the main loop over the descriptors up to `n`, with one of them ready. -/
def Input.round (n : Nat) (fd : Fd) (bs : Bytes) : List Input :=
  [.turn [] [] 0, .turn [fd] [] 0] ++ List.replicate (n + 1) (.turn [] bs 4096)
    ++ List.replicate 3 (.turn [] [] 0)

/-- A client that asks for a tunnel at once, with two bytes behind its request;
then the origin answers. -/
def Input.tunnel : List Input :=
  Input.round 1 0 [] ++ Input.round 2 2 [5, 1, 0, 5, 1, 0, 1, 127, 0, 0, 1, 0, 80, 104, 105]
    ++ Input.round 3 3 [] ++ Input.round 3 3 [111, 107]

/-- A server without users, limits or a secret. -/
def Boot.open : Boot := .sample none ⟨0, 0, 0, 0⟩

theorem tunnel_serves : (Boot.open.start.run Input.tunnel).Serves 0 :=
  ⟨2, ⟨⟨true, true⟩, .socks5, 0⟩, by decide +kernel, rfl, rfl⟩

end Socks5d
