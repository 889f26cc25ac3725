import Socks5d.Speech
import Socks5d.Gate

/-! # Attempts to reach an origin

The loop over immediate failures and the write events that resume it make one
pass over the addresses: each is tried once, in order, the first that answers
ends it, and otherwise the client is told what the last one failed with. A
timeout and a registration that fails end it early. -/
namespace Socks5d
open Ctx View

/-- An address that could not be reached, at once or after a while. -/
inductive Trial
  | refused (a : SockAddr) (e : Errno)
  | broken (a : SockAddr) (e : Errno) (reported : Bool) (conn : Option Conn)

namespace Trial

def addr : Trial → SockAddr
  | .refused a _ | .broken a _ _ _ => a

def error : Trial → Errno
  | .refused _ e | .broken _ e _ _ => e

/-- What it leaves in a history: the origin's socket is given up before the next
one is opened. -/
def events : Trial → List Obs
  | .refused a e => [.attempted a (.failed e)]
  | .broken a e reported conn => [.attempted a .opened, .completed (some e) reported conn]

end Trial

/-- What the addresses `tried` leave in a history. -/
def trials (tried : List Trial) : List Obs := tried.flatMap Trial.events

@[simp] theorem trials_append (tried more : List Trial) :
    trials (tried ++ more) = trials tried ++ trials more := List.flatMap_append

@[simp] theorem trials_singleton (x : Trial) : trials [x] = x.events := List.flatMap_singleton ..

/-- Why no address answered, as the history shows it, and the reply that calls for. -/
inductive Doomed (tried : List Trial) (left : List SockAddr) : List Obs → UInt8 → Prop
  | exhausted {x : Trial} : tried.getLast? = some x → left = [] →
      Doomed tried left [] (errnoToSocksReply x.error)
  | unregistered (a : SockAddr) (later : List SockAddr) : left = a :: later →
      Doomed tried left [.attempted a .unregistered] replyGeneralFailure
  | late (t : Int) : Doomed tried left [.timedOut .connect t] replyTtlExpired
  | lateOpen (a : SockAddr) (later : List SockAddr) (t : Int) : left = a :: later →
      Doomed tried left [.attempted a .opened, .timedOut .connect t] replyTtlExpired
  | later {l : List Obs} {r : UInt8} (t : Int) : Doomed tried left l r →
      Doomed tried left (l ++ [.timedOut .connect t]) replyTtlExpired

/-- The whole of a pass over `targets`, and the reply at its end. -/
inductive Pass (targets : List SockAddr) : List Obs → UInt8 → Prop
  | reached {tried : List Trial} (a : SockAddr) (later : List SockAddr) (reported : Bool)
      (conn : Option Conn) : targets = tried.map Trial.addr ++ a :: later →
      Pass targets (trials tried ++ [.attempted a .opened, .completed none reported conn])
        replySucceeded
  | failed {tried : List Trial} {left : List SockAddr} {l : List Obs} {r : UInt8} :
      targets = tried.map Trial.addr ++ left → Doomed tried left l r →
      Pass targets (trials tried ++ l ++ [.connectFailed]) r

/-- A pass that is still going on. -/
inductive Underway (targets : List SockAddr) : List Obs → Prop
  | between {tried : List Trial} {left : List SockAddr} :
      targets = tried.map Trial.addr ++ left → Underway targets (trials tried)
  | opened {tried : List Trial} (a : SockAddr) (later : List SockAddr) :
      targets = tried.map Trial.addr ++ a :: later →
      Underway targets (trials tried ++ [.attempted a .opened])
  | doomed {tried : List Trial} {left : List SockAddr} {l : List Obs} {r : UInt8} :
      targets = tried.map Trial.addr ++ left → Doomed tried left l r →
      Underway targets (trials tried ++ l)

/-- The address of a host that needs no resolution. -/
def Host.address (port : UInt16) : Host → Option SockAddr
  | .ipv4 a => some ⟨.inet, a.val, port⟩
  | .ipv6 a => some ⟨.inet6, a.val, port⟩
  | .fqdn _ => none

/-- The addresses a pass is to try, from what came before it: those the DNS worker
found, or the one the request names behind what let the client in. -/
inductive Sought (rx : Bytes) : List Obs → List SockAddr → Prop
  | resolved (h : List Obs) (found : List SockAddr) : found ≠ [] →
      Sought rx (h ++ [.dnsConsumed found]) found
  | literal {h : List Obs} {got user rest : Bytes} (rsv : UInt8) (m : Connect) (a : SockAddr) :
      Cleared (verdicts h) got user → got ++ Connect.encode rsv m ++ rest <+: rx →
      m.host.address m.port = some a → Sought rx (h ++ [.requestProcessed rest]) [a]

/-- What only a pass over addresses adds to a history. -/
def Obs.pursues : Obs → Bool
  | .entered .connecting _ | .attempted _ _ | .completed _ _ _ | .connectFailed
  | .timedOut .connect _ => true
  | .replied r => r == replySucceeded
  | _ => false

def Unpursued (h : List Obs) : Prop := ∀ o ∈ h, o.pursues = false

theorem Sought.ne {rx : Bytes} {h : List Obs} {targets : List SockAddr} (hs : Sought rx h targets) :
    targets ≠ [] := by
  cases hs with
  | resolved h found hne => exact hne
  | literal rsv m a => exact List.cons_ne_nil a []

theorem Sought.grow {rx : Bytes} {h : List Obs} {targets : List SockAddr} (hs : Sought rx h targets)
    (bs : Bytes) : Sought (rx ++ bs) h targets := by
  cases hs with
  | resolved h _ hne => exact .resolved h _ hne
  | literal rsv m a hc hrx ha => exact .literal rsv m a hc (hrx.trans (List.prefix_append ..)) ha

/-- A parsed request of a host that needs no resolution names one address. -/
theorem requestRun_literal {stale bs rest : Bytes} {p : RequestParser}
    (h : requestRun (requestStart stale).parser bs = ((p, false), rest)) (hp : p.state = .done)
    (hne : p.request.type ≠ socksAtypFqdn) :
    ∃ rsv m, bs = Connect.encode rsv m ++ rest ∧
      m.host.address m.port = some (literalAddr p.request) := by
  have ht := requestFeed_tells ⟨⟨0, 0, staleArray destinationMaxLen stale, 0⟩, .version, 0, 0⟩
    (staleArray_length ..) bs
  have h : requestFeed (requestParserInit
    ⟨⟨0, 0, staleArray destinationMaxLen stale, 0⟩, .version, 0, 0⟩, false) bs =
    ((p, false), rest) := h
  rw [h] at ht
  cases hr : decodeRequest bs with
  | done m after =>
    rw [hr] at ht
    obtain ⟨-, -, rfl, hhost, hport⟩ := ht
    obtain ⟨rsv, hbs⟩ := decodeRequest_done.mp hr
    refine ⟨rsv, m, hbs, ?_⟩
    unfold literalAddr
    cases hm : m.host with
    | ipv4 a =>
      rw [hm] at hhost
      rw [if_pos hhost.1, hhost.2, hport]
      rfl
    | ipv6 a =>
      rw [hm] at hhost
      rw [if_neg (by rw [hhost.1]; decide), hhost.2, hport]
      rfl
    | fqdn name =>
      rw [hm] at hhost
      exact absurd hhost.1 hne
  | failed e after =>
    rw [hr] at ht
    cases e <;> exact absurd (hp.symm.trans ht.1) (by decide)
  | more =>
    rw [hr] at ht
    have hno := ht.1
    rw [hp] at hno
    cases hno

/-! ## A session on its way -/

/-- A session with a pass under way: where its list, its origin and its reply stand. -/
inductive Stage (v : View) (targets : List SockAddr) : List Obs → Prop
  | between {tried : List Trial} {left : List SockAddr} : v.originFd = none → v.ci = opNoop →
      targets = tried.map Trial.addr ++ left →
      v.orig.asConn.current = left ∨ tried = [] ∧ v.orig.asConn.current = [] ∧
        left = [literalAddr v.client.asRequest.parser.request] →
      (∀ x, tried.getLast? = some x → v.orig.asConn.reply = errnoToSocksReply x.error) →
      Stage v targets (trials tried)
  | opened {tried : List Trial} (a : SockAddr) (later : List SockAddr) : v.originFd ≠ none →
      targets = tried.map Trial.addr ++ a :: later → v.orig.asConn.current = later →
      Stage v targets (trials tried ++ [.attempted a .opened])
  | doomed {tried : List Trial} {left : List SockAddr} {l : List Obs} : v.originFd = none →
      v.ci = opWrite → targets = tried.map Trial.addr ++ left →
      Doomed tried left l v.orig.asConn.reply → Stage v targets (trials tried ++ l)

/-- A history with a pass in it. -/
structure Pursuing (v : View) (targets : List SockAddr) (before l : List Obs) (t : Int) : Prop where
  hist : v.hist = before ++ .entered .connecting t :: l
  fresh : Unpursued before
  sought : Sought v.cl.rx before targets

/-- A session whose pass is over has been told its result. -/
inductive Answered (v : View) : Prop
  | intro (targets : List SockAddr) (before l after : List Obs) (t t' : Int) (r : UInt8) :
      Pursuing v targets before (l ++ .replied r :: .entered .requestWrite t' :: after) t →
      Pass targets l r → Unpursued after → Answered v

/-- The states behind CONNECTING. -/
def SocksState.passed : SocksState → Bool
  | .requestWrite | .copy | .done | .error => true
  | _ => false

/-- How far a session has come with its addresses. -/
def View.Tracked (v : View) : Prop :=
  if v.st = some .connecting then
    ∃ targets before l t, Pursuing v targets before l t ∧ Stage v targets l
  else Unpursued v.hist ∨ (∃ st, v.st = some st ∧ st.passed = true) ∧ Answered v

section Moves
variable {strict : Prop} {v v' : View} {targets : List SockAddr} {l ms : List Obs}

theorem append_pair {α : Type} (l : List α) (a b : α) : l ++ [a, b] = l ++ [a] ++ [b] :=
  (List.append_assoc l [a] [b]).symm

theorem Unpursued.add (h : Unpursued l) (hm : Unpursued ms) : Unpursued (l ++ ms) :=
  fun o ho => (List.mem_append.mp ho).elim (h o) (hm o)

theorem Pursuing.grow {before : List Obs} {t : Int} (h : Pursuing v targets before l t) (bs : Bytes)
    (hh : v'.hist = v.hist ++ ms) (hrx : v'.cl.rx = v.cl.rx ++ bs) :
    Pursuing v' targets before (l ++ ms) t where
  hist := by rw [hh, h.hist, List.append_assoc, List.cons_append]
  fresh := h.fresh
  sought := hrx ▸ h.sought.grow bs

/-- Outside of CONNECTING nothing is added to a pass. -/
theorem View.Tracked.outside (h : v.Tracked) (hst : v.st ≠ some .connecting)
    (hst' : v'.st ≠ some .connecting)
    (hpassed : ∀ st, v.st = some st → st.passed = true → ∃ st', v'.st = some st' ∧ st'.passed = true)
    {bs : Bytes} (hh : v'.hist = v.hist ++ ms) (hrx : v'.cl.rx = v.cl.rx ++ bs)
    (hm : Unpursued ms) : v'.Tracked := by
  unfold View.Tracked at h ⊢
  rw [if_neg hst] at h
  rw [if_neg hst']
  rcases h with h | ⟨⟨st, hs, hp⟩, ha⟩
  · rw [hh]
    exact Or.inl (h.add hm)
  · obtain ⟨targets, before, l, after, t, t', r, hpur, hpass, hafter⟩ := ha
    refine Or.inr ⟨hpassed st hs hp, .intro targets before l (after ++ ms) t t' r ?_ hpass
      (hafter.add hm)⟩
    have hgrown := hpur.grow bs hh hrx
    rwa [List.append_assoc, List.cons_append, List.cons_append] at hgrown

/-- The last event of the addresses tried belongs to the last of them. -/
theorem trials_last {tried : List Trial} {x : Trial} (h : tried.getLast? = some x) :
    ∃ pre o, trials tried = pre ++ [o] ∧ o ∈ x.events := by
  obtain ⟨init, rfl⟩ := List.getLast?_eq_some_iff.mp h
  rw [trials_append, trials_singleton]
  cases x with
  | refused a e => exact ⟨trials init, _, rfl, List.mem_singleton_self _⟩
  | broken a e reported conn =>
    exact ⟨trials init ++ [.attempted a .opened], .completed (some e) reported conn,
      (List.append_assoc _ [_] [_]).symm, by simp [Trial.events]⟩

theorem Trial.not_entered {x : Trial} {st : SocksState} {t : Int} : .entered st t ∉ x.events := by
  cases x <;> simp [Trial.events]

theorem tried_cases (tried : List Trial) : tried = [] ∨ ∃ x, tried.getLast? = some x := by
  cases h : tried.getLast? with
  | none => exact Or.inl (List.getLast?_eq_none_iff.mp h)
  | some x => exact Or.inr ⟨x, rfl⟩

/-- Before its first trial the pass has just begun, and only then. -/
theorem Pursuing.last_entered {before : List Obs} {t t' : Int} {st : SocksState}
    {tried : List Trial} (h : Pursuing v targets before (trials tried) t)
    (hl : v.hist.getLast? = some (.entered st t')) : tried = [] := by
  rcases tried_cases tried with h0 | ⟨x, hx⟩
  · exact h0
  · obtain ⟨pre, o, ho, hmem⟩ := trials_last hx
    have hhist : v.hist = before ++ .entered .connecting t :: pre ++ [o] := by
      rw [h.hist, ho, List.append_assoc, List.cons_append]
    rw [hhist, List.getLast?_concat] at hl
    cases Option.some.inj hl
    exact absurd hmem Trial.not_entered

theorem Stage.attempting {before : List Obs} {t : Int} (hp : Pursuing v targets before l t)
    (hs : Stage v targets l) {a : SockAddr} {rest : List SockAddr} (ha : v.Attempting a rest) :
    ∃ tried, l = trials tried ∧ targets = tried.map Trial.addr ++ a :: rest := by
  obtain ⟨-, hor, hci, hlist⟩ := ha
  cases hs with
  | @between tried left _ _ ht hcur _ =>
    rcases hlist with hc | ⟨hc, rfl, ⟨t', hlast⟩, rfl⟩
    · rcases hcur with hl | ⟨-, hl, -⟩
      · exact ⟨tried, rfl, by rw [ht, ← hl, hc]⟩
      · cases hc.symm.trans hl
    · have h0 := hp.last_entered hlast
      rcases hcur with hl | ⟨-, -, hl⟩
      · -- nothing to try is not how a pass begins
        rw [h0, ← hl, hc] at ht
        exact absurd ht hp.sought.ne
      · exact ⟨tried, rfl, by rw [ht, hl]⟩
  | opened a later ho => exact absurd hor ho
  | doomed _ hw => cases hci.symm.trans hw

/-- The list is used up when the last attempt has failed with nothing behind it. -/
theorem Stage.exhausted {before : List Obs} {t : Int} (hp : Pursuing v targets before l t)
    (hs : Stage v targets l) (hor : v.originFd = none) (hci : v.ci = opNoop)
    (hcur : v.orig.asConn.current = []) {a : SockAddr} {e : Errno}
    (hlast : v.hist.getLast? = some (.attempted a (.failed e))) :
    Stage { v with ci := opWrite } targets l := by
  cases hs with
  | @between tried left _ _ ht hleft hrep =>
    rcases tried_cases tried with rfl | ⟨x, hx⟩
    · have hhist : v.hist = before ++ [.entered .connecting t] := hp.hist
      rw [hhist, List.getLast?_concat] at hlast
      cases hlast
    · have h0 : left = [] := by
        rcases hleft with hl | ⟨h0, -⟩
        · exact hl.symm.trans hcur
        · rw [h0] at hx
          cases hx
      have hd : Doomed tried left [] v.orig.asConn.reply := by
        rw [hrep x hx]
        exact .exhausted hx h0
      have hstage : Stage { v with ci := opWrite } targets (trials tried ++ []) :=
        .doomed hor rfl ht hd
      rwa [List.append_nil] at hstage
  | opened a later ho => exact absurd hor ho
  | doomed _ hw => cases hci.symm.trans hw

/-- A timeout ends any pass. -/
theorem Stage.timedOut (hs : Stage v targets l) (t : Int) :
    Stage { ({ v with orig := .conn ⟨[], replyTtlExpired⟩ }.noOrigin).note (.timedOut .connect t) with
      ci := opWrite } targets (l ++ [.timedOut .connect t]) := by
  cases hs with
  | between _ _ ht => exact .doomed rfl rfl ht (.late t)
  | opened a later _ ht =>
    rw [List.append_assoc]
    exact .doomed rfl rfl ht (.lateOpen a later t rfl)
  | doomed _ _ ht hd =>
    rw [List.append_assoc]
    exact .doomed rfl rfl ht (.later t hd)

theorem View.Tracked.pass (h : v.Tracked) (hst : v.st = some .connecting) :
    ∃ targets before l t, Pursuing v targets before l t ∧ Stage v targets l := by
  unfold View.Tracked at h
  rwa [if_pos hst] at h

theorem View.Tracked.fresh {st : SocksState} (h : v.Tracked) (hst : v.st = some st)
    (hne : st ≠ .connecting) (hp : st.passed = false) : Unpursued v.hist := by
  unfold View.Tracked at h
  rw [if_neg (by rw [hst]; exact fun he => hne (Option.some.inj he))] at h
  rcases h with h | ⟨⟨st', hs, hp'⟩, -⟩
  · exact h
  · rw [Option.some.inj (hst.symm.trans hs), hp'] at hp
    cases hp

/-- The pass goes on. -/
theorem View.Tracked.onward {before : List Obs} {t : Int} (hp : Pursuing v targets before l t)
    (hst : v'.st = some .connecting) (hh : v'.hist = v.hist ++ ms) (hrx : v'.cl.rx = v.cl.rx)
    (hs : Stage v' targets (l ++ ms)) : v'.Tracked := by
  unfold View.Tracked
  rw [if_pos hst]
  exact ⟨targets, before, _, t, hp.grow [] hh (by rw [hrx, List.append_nil]), hs⟩

/-- The pass is over. -/
theorem View.Tracked.over {before : List Obs} {t t' : Int} {r : UInt8}
    (hp : Pursuing v targets before l t) (hst : v'.st = some .requestWrite)
    (hh : v'.hist = v.hist ++ (ms ++ [.replied r, .entered .requestWrite t']))
    (hrx : v'.cl.rx = v.cl.rx) (hpass : Pass targets (l ++ ms) r) : v'.Tracked := by
  unfold View.Tracked
  rw [if_neg (by rw [hst]; decide)]
  refine Or.inr ⟨⟨_, hst, rfl⟩, .intro targets before (l ++ ms) [] t t' r ?_ hpass fun o ho => ?_⟩
  · have hgrown := hp.grow [] hh (by rw [hrx, List.append_nil])
    rwa [← List.append_assoc] at hgrown
  · cases ho

theorem View.Tracked.begun {before : List Obs} {t : Int} (hst : v.st = some .connecting)
    (hp : Pursuing v targets before [] t) (hs : Stage v targets []) : v.Tracked := by
  unfold View.Tracked
  rw [if_pos hst]
  exact ⟨targets, before, [], t, hp, hs⟩

theorem Stage.start (hor : v.originFd = none) (hci : v.ci = opNoop)
    (hcur : v.orig.asConn.current = targets ∨ v.orig.asConn.current = [] ∧
      targets = [literalAddr v.client.asRequest.parser.request]) : Stage v targets [] := by
  have h0 : Stage v targets (trials []) :=
    .between hor hci (List.nil_append targets).symm (hcur.imp_right fun h => ⟨rfl, h⟩)
      fun x hx => by cases hx
  exact h0

/-- One more address could not be reached. -/
theorem Stage.more {tried : List Trial} {left : List SockAddr} (x : Trial) (hor : v.originFd = none)
    (hci : v.ci = opNoop) (ht : targets = tried.map Trial.addr ++ x.addr :: left)
    (hcur : v.orig.asConn.current = left) (hr : v.orig.asConn.reply = errnoToSocksReply x.error) :
    Stage v targets (trials tried ++ x.events) := by
  have hmore : Stage v targets (trials (tried ++ [x])) := by
    refine .between hor hci ?_ (Or.inl hcur) fun y hy => ?_
    · rw [ht, List.map_append, List.append_assoc]
      rfl
    · rw [List.getLast?_concat] at hy
      rw [← Option.some.inj hy, hr]
  rwa [trials_append, trials_singleton] at hmore

/-- The pass does not look at the sockets. -/
theorem Stage.onSocks (h : Stage v targets l) (cl og : Sock) :
    Stage { v with cl := cl, og := og } targets l := by
  cases h with
  | between hor hci ht hcur hr => exact .between hor hci ht hcur hr
  | opened a later hor ht hcur => exact .opened a later hor ht hcur
  | doomed hor hci ht hd => exact .doomed hor hci ht hd

theorem View.Tracked.onSocks (h : v.Tracked) {cl og : Sock} (hrx : cl.rx = v.cl.rx) :
    ({ v with cl := cl, og := og } : View).Tracked := by
  have hpur : ∀ {targets before l t}, Pursuing v targets before l t →
      Pursuing { v with cl := cl, og := og } targets before l t :=
    fun hp => ⟨hp.hist, hp.fresh, hrx ▸ hp.sought⟩
  unfold View.Tracked at h ⊢
  split at h
  · next hst =>
    rw [if_pos hst]
    obtain ⟨targets, before, l, t, hp, hs⟩ := h
    exact ⟨targets, before, l, t, hpur hp, hs.onSocks cl og⟩
  · next hst =>
    rw [if_neg hst]
    refine h.imp_right fun ⟨hst, ha⟩ => ⟨hst, ?_⟩
    obtain ⟨targets, before, l, after, t, t', r, hp, hpass, hafter⟩ := ha
    exact .intro targets before l after t t' r (hpur hp) hpass hafter

theorem requestLiteral_sought (hs : v.Sane) (hc : v.Script) (hst : v.st = some .requestRead)
    {p : RequestParser} {rest : Bytes}
    (hrun : requestRun v.client.asRequest.parser v.rb = ((p, false), rest)) (hp : p.state = .done)
    (hne : p.request.type ≠ socksAtypFqdn) :
    Sought v.cl.rx (v.hist ++ [.requestProcessed rest]) [literalAddr p.request] := by
  simp only [View.Sane, hst] at hs
  obtain ⟨-, -, -, q, hq, hstop, -⟩ := hs
  have hparser : v.client.asRequest.parser = q.parser := by rw [hq]; rfl
  simp only [View.Script, hst] at hc
  obtain ⟨ns, got, user, hcl, ht, -, stale, seen, hseen, hbefore⟩ := hc
  rw [hparser] at hbefore hrun
  obtain ⟨rsv, m, hbs, haddr⟩ := requestRun_literal
    ((Lib.Incremental.feed_resume (requestStart_running stale).1 hstop hbefore).trans hrun) hp hne
  have hseen' : got ++ Connect.encode rsv m ++ rest = v.cl.rx := by
    rw [hseen, hbs, List.append_assoc]
  exact .literal rsv m _ (ht.verdicts ▸ hcl) (hseen' ▸ List.prefix_rfl) haddr

theorem Move.tracked (h : Move strict v v') (hs : v.Sane) (hc : v.Script) (ht : v.Tracked) :
    v'.Tracked := by
  have hnil : v.hist = v.hist ++ [] ∧ v.cl.rx = v.cl.rx ++ [] :=
    ⟨(List.append_nil _).symm, (List.append_nil _).symm⟩
  -- the pass and the moves of other states leave each other alone
  have hquiet : ∀ {st st' : SocksState} {more : List Obs} {bs : Bytes}, v.st = some st →
      v'.st = some st' → st ≠ .connecting → st' ≠ .connecting →
      (st.passed = true → st'.passed = true) → v'.hist = v.hist ++ more →
      v'.cl.rx = v.cl.rx ++ bs → Unpursued more → v'.Tracked := by
    intro st st' more bs hst hst' hne hne' hp hh hrx hm
    refine ht.outside (by rw [hst]; simpa) (by rw [hst']; simpa) (fun s h1 h2 => ?_) hh hrx hm
    rw [← Option.some.inj (hst.symm.trans h1)] at h2
    exact ⟨st', hst', hp h2⟩
  have hone : ∀ {o : Obs}, o.pursues = false → Unpursued [o] := fun ho x hx => by
    rw [List.mem_singleton.mp hx, ho]
  have htwo : ∀ {o o' : Obs}, o.pursues = false → o'.pursues = false → Unpursued [o, o'] :=
    fun h1 h2 => (hone h1).add (hone h2)
  have hnone : Unpursued [] := fun o ho => by cases ho
  have hcopy : ∀ {st' : SocksState} {more : List Obs} {bs : Bytes}, v.st = some .copy →
      v'.st = some st' → st'.passed = true → v'.hist = v.hist ++ more →
      v'.cl.rx = v.cl.rx ++ bs → Unpursued more → v'.Tracked := by
    intro st' more bs hst hst' hp hh hrx hm
    exact hquiet hst hst' (by decide) (by rintro rfl; cases hp) (fun _ => hp) hh hrx hm
  cases h with
  | start t hst =>
    exact ht.outside (by rw [hst]; decide)
      (show some SocksState.helloRead ≠ some .connecting by decide)
      (fun st h1 => by rw [hst] at h1; cases h1) rfl hnil.2 (hone rfl)
  | received bs hst hr =>
    exact hquiet hst hst (by rintro rfl; cases hr) (by rintro rfl; cases hr) id hnil.1 rfl hnone
  | sent n hst hw =>
    exact hquiet hst hst (by rintro rfl; cases hw) (by rintro rfl; cases hw) id hnil.1 hnil.2 hnone
  | recvLost t hst hr | sendLost t hst hr =>
    exact hquiet hst rfl (by rintro rfl; cases hr) (by decide) (fun _ => rfl) rfl hnil.2 (hone rfl)
  | helloMore p hst | authMore p hst | requestMore p hst | resolved found hst =>
    exact hquiet hst hst (by decide) (by decide) id hnil.1 hnil.2 hnone
  | helloBad p rest t hst | helloRefused t hst | authBad p rest t hst | authRefused t hst
  | requestBad p rest t hst | requestRefusalSent t hst =>
    exact hquiet hst rfl (by decide) (by decide) (fun _ => rfl) rfl hnil.2 (hone rfl)
  | helloToAuth stale t hst | helloToRequest stale t hst | authToRequest stale t hst =>
    exact hquiet hst rfl (by decide) (by decide) (by decide) rfl hnil.2 (hone rfl)
  | helloDone us p rest t hst | authDone us p rest t hst =>
    exact hquiet hst rfl (by decide) (by decide) (by decide) (List.append_assoc _ [_] [_]) hnil.2
      (htwo rfl rfl)
  | requestRefused p rest r t hst hrun hr =>
    have hno : Obs.pursues (.replied r) = false := by
      rcases hr with ⟨-, rfl⟩ | ⟨-, rfl⟩ <;> rfl
    have hm : Unpursued [.requestProcessed rest, .replied r, .entered .requestWrite t] :=
      (htwo rfl hno).add (hone rfl)
    exact hquiet hst rfl (by decide) (by decide) (by decide) (by simp) hnil.2 hm
  | requestUnsubmitted p rest t hst =>
    have hm : Unpursued [.requestProcessed rest, .dnsSubmit none, .replied replyGeneralFailure,
      .entered .requestWrite t] := (htwo rfl rfl).add (htwo rfl rfl)
    exact hquiet hst rfl (by decide) (by decide) (by decide) (by simp) hnil.2 hm
  | requestSubmitted p rest k t hst =>
    have hm : Unpursued [.requestProcessed rest, .dnsSubmit (some k), .entered .requestResolv t] :=
      (htwo rfl rfl).add (hone rfl)
    exact hquiet hst rfl (by decide) (by decide) (by decide) (by simp) hnil.2 hm
  | dnsFailed t hst =>
    have hm : Unpursued [.dnsConsumed [], .replied replyHostUnreachable, .entered .requestWrite t] :=
      (htwo rfl rfl).add (hone rfl)
    exact hquiet hst rfl (by decide) (by decide) (by decide) (by simp) hnil.2 hm
  | requestLiteral p rest t hst hrun hdone hne =>
    have hseen : Obs.pursues (.requestProcessed rest) = false := rfl
    have hfresh := (ht.fresh hst (by decide) rfl).add (hone hseen)
    have hsought := requestLiteral_sought hs hc hst hrun hdone hne
    simp only [View.Sane, hst] at hs
    obtain ⟨⟨hor, -⟩, -⟩ := hs
    exact .begun rfl ⟨rfl, hfresh, hsought⟩ (.start hor rfl (Or.inr ⟨rfl, rfl⟩))
  | dnsFound t hst hfound =>
    have hseen : Obs.pursues (.dnsConsumed v.found) = false := rfl
    have hfresh := (ht.fresh hst (by decide) rfl).add (hone hseen)
    simp only [View.Sane, hst] at hs
    obtain ⟨⟨hor, -⟩, -, hci, -⟩ := hs
    exact .begun rfl ⟨rfl, hfresh, .resolved v.hist v.found hfound⟩ (.start hor hci (Or.inl rfl))
  | attemptFailed a rest e ha =>
    obtain ⟨targets, before, l, t, hp, hstage⟩ := ht.pass ha.1
    obtain ⟨tried, rfl, htargets⟩ := hstage.attempting hp ha
    exact .onward hp ha.1 rfl rfl (.more (.refused a e) ha.2.1 ha.2.2.1 htargets rfl rfl)
  | attemptUnregistered a rest ha =>
    obtain ⟨targets, before, l, t, hp, hstage⟩ := ht.pass ha.1
    obtain ⟨tried, rfl, htargets⟩ := hstage.attempting hp ha
    exact .onward hp ha.1 rfl rfl (.doomed ha.2.1 rfl htargets (.unregistered a rest rfl))
  | attemptOpened a rest fd k ha hk =>
    obtain ⟨targets, before, l, t, hp, hstage⟩ := ht.pass ha.1
    obtain ⟨tried, rfl, htargets⟩ := hstage.attempting hp ha
    exact .onward hp ha.1 rfl rfl (.opened a rest (Option.some_ne_none fd) htargets rfl)
  | exhausted a e hst hor hci hcur hlast =>
    obtain ⟨targets, before, l, t, hp, hstage⟩ := ht.pass hst
    have hnext := hstage.exhausted hp hor hci hcur hlast
    rw [← List.append_nil l] at hnext
    exact .onward hp hst hnil.1 rfl hnext
  | gaveUp t hst hor hci =>
    obtain ⟨targets, before, l, t', hp, hstage⟩ := ht.pass hst
    cases hstage with
    | between _ hnoop => cases hnoop.symm.trans hci
    | opened a later ho => exact absurd hor ho
    | doomed _ _ htargets hd =>
      exact .over hp rfl (by simp; rfl) rfl (.failed htargets hd)
  | connected fd t hst hor =>
    obtain ⟨targets, before, l, t', hp, hstage⟩ := ht.pass hst
    cases hstage with
    | between hn => cases hn.symm.trans hor
    | doomed hn => cases hn.symm.trans hor
    | opened a later _ htargets =>
      have hpass := Pass.reached a later v.og.reported (some v.og.conn) htargets
      rw [append_pair] at hpass
      exact .over hp rfl (by simp; rfl) rfl hpass
  | originFailed fd e hst hor hcur =>
    obtain ⟨targets, before, l, t', hp, hstage⟩ := ht.pass hst
    cases hstage with
    | between hn => cases hn.symm.trans hor
    | doomed hn => cases hn.symm.trans hor
    | opened a later _ htargets hlater =>
      simp only [View.Sane, hst] at hs
      have hci := (hs.2.2.2.2 (by rw [hor]; exact Option.some_ne_none fd)).1
      have hnext : Stage (((v.sawOrigin (some e)).setReply e v.orig.asConn.current).noOrigin) targets _ :=
        .more (.broken a e v.og.reported (some v.og.conn)) rfl hci htargets hlater rfl
      rw [Trial.events, append_pair] at hnext
      exact .onward hp hst rfl rfl hnext
  | originGaveUp fd e t hst hor hcur =>
    obtain ⟨targets, before, l, t', hp, hstage⟩ := ht.pass hst
    cases hstage with
    | between hn => cases hn.symm.trans hor
    | doomed hn => cases hn.symm.trans hor
    | @opened tried a later _ htargets hlater =>
      have hall : targets = (tried ++ [Trial.broken a e v.og.reported (some v.og.conn)]).map
          Trial.addr ++ later := by
        rw [htargets, List.map_append, List.append_assoc]
        rfl
      have hpass : Pass targets _ (errnoToSocksReply e) :=
        .failed hall (.exhausted (List.getLast?_concat ..) (hlater.symm.trans hcur))
      rw [trials_append, trials_singleton, Trial.events, append_pair, List.append_nil,
        List.append_assoc _ [_] [_]] at hpass
      exact .over hp rfl (by simp; rfl) rfl hpass
  | connectTimedOut t hst =>
    obtain ⟨targets, before, l, t', hp, hstage⟩ := ht.pass hst
    exact .onward hp hst rfl rfl (hstage.timedOut t)
  | reported | settled => exact ht.onSocks rfl
  | relayStarted t hst =>
    exact hquiet hst rfl (by decide) (by decide) (fun _ => rfl) (startRelay_grown v t) hnil.2
      (startRelay_each v t (fun _ => rfl) (fun _ _ _ => rfl) fun _ => rfl)
  | relayReceived d bs t hst =>
    cases d
    · exact hcopy hst hst rfl rfl rfl (hone rfl)
    · exact hcopy hst hst rfl rfl hnil.2 (hone rfl)
  | relayEof d t hst | relayUnread d lost t hst | relaySent d n flawless hst
  | relayUnsent d lost flawless hst | relayShut d shut hst =>
    cases d <;> exact hcopy hst hst rfl rfl hnil.2 (hone rfl)
  | relayUnshut d t hst =>
    exact hcopy hst rfl rfl (List.append_assoc _ [_] [_]) hnil.2 (htwo rfl rfl)
  | relaySynced r₁ r₂ hst => exact hcopy hst hst rfl hnil.1 hnil.2 hnone
  | relayDone t hst | relayBroken d t hst => exact hcopy hst rfl rfl rfl hnil.2 (hone rfl)

theorem Reached.tracked (h : Reached strict v) : v.Tracked := by
  have hboth : v.Script ∧ v.Tracked :=
    h.induct (P := fun v => v.Script ∧ v.Tracked)
      (fun fd t => ⟨fresh_script fd t, Or.inl fun o ho => by cases ho⟩)
      fun hs hv hm => ⟨hm.script hs hv.1, hm.tracked hs hv.1 hv.2⟩
  exact hboth.2

/-- Where a session stands with the addresses it is to try. -/
def View.InOrder (v : View) : Prop :=
  Unpursued v.hist ∨
    (∃ targets before l t, Pursuing v targets before l t ∧ Underway targets l) ∨ Answered v

theorem Stage.underway (h : Stage v targets l) : Underway targets l := by
  cases h with
  | between _ _ ht => exact .between ht
  | opened a later _ ht => exact .opened a later ht
  | doomed _ _ ht hd => exact .doomed ht hd

theorem View.Tracked.inOrder (h : v.Tracked) : v.InOrder := by
  unfold View.Tracked at h
  split at h
  · obtain ⟨targets, before, l, t, hp, hs⟩ := h
    exact Or.inr (Or.inl ⟨targets, before, l, t, hp, hs.underway⟩)
  · exact h.imp_right fun ha => Or.inr ha.2

/-- No session is ended while its pass is under way. -/
theorem Final.unpursued {fair : View → Limit → Int → Prop} (hf : Final fair v l) :
    v.st ≠ some .connecting ∧ Unpursued l := by
  obtain ⟨t, reason, he⟩ := hf
  have hrest : Unpursued ((v.lastRecord t reason).toList.map .logged ++ [.released]) := by
    intro o ho
    rcases List.mem_append.mp ho with ho | ho
    · obtain ⟨r, -, rfl⟩ := List.mem_map.mp ho
      rfl
    · rw [List.mem_singleton.mp ho]
      rfl
  rw [List.append_assoc]
  cases he with
  | finished hend =>
    refine ⟨fun hst => ?_, hrest⟩
    rcases hend with hend | hend <;> cases hend.symm.trans hst
  | timedOut limit now hx =>
    refine ⟨fun hst => ?_, Unpursued.add (fun o ho => ?_) hrest⟩
    · cases limit with
      | negotiation => exact hx.2.1 hst
      | connect => exact hx
      | idle => cases hx.1.symm.trans hst
    · rw [List.mem_singleton.mp ho]
      cases limit with
      | connect => exact hx.elim
      | _ => rfl

/-! ## One origin at a time -/

@[simp] def Obs.tries : Obs → Bool
  | .attempted _ _ => true
  | _ => false

/-- An attempt is made without an origin, and nothing else looks like one. -/
theorem Move.tries (h : Move strict v v') :
    v'.hist.countP Obs.tries = v.hist.countP Obs.tries ∨
      v.originFd = none ∧ ∃ o, v'.hist = v.hist ++ [o] := by
  cases h with
  | attemptFailed a rest e ha | attemptUnregistered a rest ha => exact Or.inr ⟨ha.2.1, _, rfl⟩
  | attemptOpened a rest fd k ha => exact Or.inr ⟨ha.2.1, _, rfl⟩
  | relayStarted t =>
    left
    have hno := startRelay_each v t (P := fun o => ¬o.tries = true) (fun _ => Bool.false_ne_true)
      (fun _ _ _ => Bool.false_ne_true) fun _ => Bool.false_ne_true
    rw [startRelay_grown, List.countP_append, List.countP_eq_zero.mpr hno, Nat.add_zero]
  | _ =>
    left
    simp

/-- An attempt is on record before what is added without one. -/
theorem untried_append {h pre post : List Obs} {o : Obs} (hl : l.countP Obs.tries = 0)
    (ho : o.tries = true) (he : h ++ l = pre ++ o :: post) : ∃ post', h = pre ++ o :: post' := by
  have hno : o ∉ l := fun hm => List.countP_eq_zero.mp hl o hm ho
  rcases List.append_eq_append_iff.mp he with ⟨mid, -, hmid⟩ | ⟨mid, hmid, hrest⟩
  · exact absurd (hmid ▸ List.mem_append_right mid List.mem_cons_self) hno
  · cases mid with
    | nil =>
      rw [List.nil_append] at hrest
      exact absurd (hrest ▸ List.mem_cons_self) hno
    | cons x mid =>
      rw [List.cons_append] at hrest
      obtain ⟨rfl, -⟩ := List.cons.inj hrest
      exact ⟨mid, hmid⟩

/-- Before every attempt the session was without an origin. -/
theorem Reached.alone (h : Reached strict v) {pre post : List Obs} {a : SockAddr} {r : Attempt}
    (he : v.hist = pre ++ .attempted a r :: post) :
    ∃ u, Moves strict u v ∧ u.hist = pre ∧ u.originFd = none := by
  refine h.induct (P := fun v => ∀ pre post, v.hist = pre ++ .attempted a r :: post →
    ∃ u, Moves strict u v ∧ u.hist = pre ∧ u.originFd = none) (fun fd t pre post he => ?_)
    (fun {v v'} _ ih hm pre post he => ?_) pre post he
  · cases pre <;> cases he
  · have hearlier : (∃ post', v.hist = pre ++ .attempted a r :: post') →
        ∃ u, Moves strict u v' ∧ u.hist = pre ∧ u.originFd = none := by
      rintro ⟨post', he⟩
      obtain ⟨u, hu, h1, h2⟩ := ih pre post' he
      exact ⟨u, hu.tail hm, h1, h2⟩
    rcases hm.tries with hcount | ⟨hor, o, hh⟩
    · obtain ⟨l, -, hl, -⟩ := hm.passage
      rw [hl, List.countP_append] at hcount
      exact hearlier (untried_append (by omega) rfl (hl.symm.trans he))
    · rw [hh] at he
      rcases List.eq_nil_or_concat post with rfl | ⟨post', x, rfl⟩
      · exact ⟨v, .single hm, (List.append_inj' he rfl).1, hor⟩
      · rw [List.concat_eq_append, ← List.cons_append, ← List.append_assoc] at he
        exact hearlier ⟨post', (List.append_inj' he rfl).1⟩

/-- Whenever the session made an attempt, it had no origin: the one before had
been given up. -/
def View.Alone (v : View) : Prop :=
  ∀ pre a r post, v.hist = pre ++ .attempted a r :: post →
    ∃ u u', Moves False u u' ∧ (v = u' ∨ ∃ l, v = u'.filed l) ∧ u.hist = pre ∧ u.originFd = none

end Moves

/-- In every run, a session tries the addresses of its request in order, each at
most once and with one origin socket at a time: it stops at the first that answers
and says so, and otherwise, after the last or when it is stopped early, it tells
the client why. No session reports a success in any other way. -/
theorem attempts_in_order (b : Boot) (is : List Input) {v : View}
    (hs : (b.start.run is).Session v) : v.InOrder ∧ v.Alone := by
  obtain ⟨ρ, h⟩ := b.orderly is
  refine h.every hs (P := fun v => v.InOrder ∧ v.Alone)
    (fun {u} hr => ⟨hr.tracked.inOrder, fun pre a r post he => ?_⟩)
    fun {u l} hr hf _ => ⟨?_, fun pre a r post he => ?_⟩
  · obtain ⟨u', hu, h1, h2⟩ := hr.alone he
    exact ⟨u', u, hu, Or.inl rfl, h1, h2⟩
  · obtain ⟨hst, hl⟩ := hf.unpursued
    have hfiled : (u.filed l).Tracked :=
      hr.tracked.outside hst hst (fun st h1 h2 => ⟨st, h1, h2⟩) rfl (List.append_nil _).symm hl
    exact hfiled.inOrder
  · have hl : l.countP Obs.tries = 0 := List.countP_eq_zero.mpr fun o ho => by
      have hc := hf.closing o ho
      cases o <;> first | exact Bool.false_ne_true | cases hc
    obtain ⟨post', he⟩ := untried_append hl rfl he
    obtain ⟨u', hu, h1, h2⟩ := hr.alone he
    exact ⟨u', u, hu, Or.inr ⟨l, rfl⟩, h1, h2⟩

theorem attempts_in_order_tunnel : ((Boot.open.start.run Input.tunnel).ctx 0).view.InOrder ∧
    ((Boot.open.start.run Input.tunnel).ctx 0).view.Alone :=
  attempts_in_order Boot.open Input.tunnel (.live tunnel_serves)

end Socks5d
