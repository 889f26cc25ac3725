import Socks5d.Messages
import Socks5d.Closing

/-! # The transcript of a session

What a session and its client have told each other: the messages that were read
off the client's stream, what each was answered with, and what the session keeps
of them. It is determined in every state, whatever pieces the stream came in. -/
namespace Socks5d
open Ctx View Lib.CString Lib.Incremental Lib.Readers Lib.Readers.Reading

/-! ## The three messages, read to their end -/

theorem Terminated.cstr {m xs : Bytes} (h : Terminated m xs) : cstr m = cstr xs := by
  obtain ⟨htake, hzero⟩ := h
  obtain ⟨hlt, hget⟩ := List.getElem?_eq_some_iff.mp hzero
  rw [← List.take_append_drop xs.length m, htake, List.drop_eq_getElem_cons hlt, hget,
    cstr_append_zero]

/-- The store compares strings. -/
theorem credentialsAccepted_congr (us : Option Users) {uname uname' passwd passwd' : Bytes}
    (hu : cstr uname = cstr uname') (hp : cstr passwd = cstr passwd') :
    credentialsAccepted us uname passwd = credentialsAccepted us uname' passwd' := by
  cases us with
  | none => rfl
  | some u =>
    have hfind : u.findUser uname = u.findUser uname' := by
      unfold Users.findUser
      congr 1
      funext e
      exact strncmpEq_congr nameLen rfl hu
    show u.usersCheck uname passwd = u.usersCheck uname' passwd'
    unfold Users.usersCheck
    rw [hfind]
    cases u.findUser uname' with
    | none => rfl
    | some i => exact strncmpEq_congr passLen rfl hp

/-- A client's HELLO `bs`, judged by the store `us`, is answered with `m`. -/
def Chosen (us : Option Users) (bs : Bytes) (m : UInt8) : Prop :=
  ∃ methods : Field, bs = socksVersion :: methods.encode ∧ m = methodChoice us methods.val

/-- A client's AUTH `bs`, judged by the store `us`, is answered with `status`;
`user` is who the client is from then on. -/
def Judged (us : Option Users) (bs : Bytes) (status : UInt8) (user : Bytes) : Prop :=
  ∃ c : Credentials, bs = c.encode ∧
    if credentialsAccepted us c.uname.val c.passwd.val then
      status = 0x00 ∧ user = cstr c.uname.val
    else status = 0x01 ∧ user = []

/-- The destination of a request as text. -/
def Host.text : Host → Bytes
  | .ipv4 a => inetNtop4 a.val
  | .ipv6 a => inetNtop6 a.val
  | .fqdn name => cstr name.val

theorem Host.Stored.text {r : Socks5Request} {host : Host} (h : host.Stored r) :
    storedDestination r = some host.text := by
  unfold storedDestination
  cases host with
  | ipv4 a =>
    obtain ⟨ht, ha⟩ := h
    rw [ht, ha]
    rfl
  | ipv6 a =>
    obtain ⟨ht, ha⟩ := h
    rw [ht, ha]
    rfl
  | fqdn name =>
    obtain ⟨ht, ha⟩ := h
    have hlen : (cstr name.val).length ≤ destinationMaxLen - 1 :=
      Nat.le_trans (cstr_length_le _) name.property.2
    rw [if_pos ht, Socks5Request.fqdn, ha.cstr, List.take_of_length_le hlen]
    rfl

theorem staleArray_length (n : Nat) (stale : Bytes) : (staleArray n stale).length = n := by
  unfold staleArray
  rw [List.length_take, List.length_append, List.length_replicate]
  omega

theorem helloRun_done {bs rest : Bytes} {p : HelloParser Offers}
    (h : helloRun helloStart.parser bs = ((p, false), rest)) (hp : p.state = .done) :
    ∃ hello, bs = hello ++ rest ∧ ∀ us, Chosen us hello (helloMethod us p.data) := by
  have ht := helloFeed_tells onHelloMethod ⟨⟨false, false⟩, .version, 0⟩ bs
  have h : helloFeed onHelloMethod (helloParserInit ⟨⟨false, false⟩, .version, 0⟩, false) bs =
    ((p, false), rest) := h
  rw [h] at ht
  cases hr : decodeHello bs with
  | done methods after =>
    rw [hr] at ht
    obtain ⟨-, -, rfl, hdata⟩ := ht
    refine ⟨socksVersion :: methods.encode, ?_, fun us => ⟨methods, rfl, ?_⟩⟩
    · exact decodeHello_done.mp hr
    · rw [hdata]
      exact helloMethod_offers us methods.val
  | failed e after =>
    rw [hr] at ht
    exact absurd (hp.symm.trans ht.1) (by decide)
  | more =>
    rw [hr] at ht
    have hno := ht.1
    rw [hp] at hno
    cases hno

theorem authRun_done {stale bs rest : Bytes} {p : AuthParser}
    (h : authRun (authStart stale).parser bs = ((p, false), rest)) (hp : p.state = .done) :
    ∃ auth, bs = auth ++ rest ∧ ∀ us, Judged us auth (authStatus us p)
      (if credentialsAccepted us p.uname p.passwd then (cstr p.uname).take 255 else []) := by
  have ht := authFeed_tells ⟨.ver, 0, 0, 0, staleArray 256 stale, staleArray 256 stale⟩
    (staleArray_length ..) (staleArray_length ..) bs
  have h : authFeed (authParserInit ⟨.ver, 0, 0, 0, staleArray 256 stale, staleArray 256 stale⟩, false)
    bs = ((p, false), rest) := h
  rw [h] at ht
  cases hr : decodeAuth bs with
  | done c after =>
    rw [hr] at ht
    obtain ⟨-, -, rfl, hu, hpw⟩ := ht
    refine ⟨c.encode, decodeAuth_done.mp hr, fun us => ⟨c, rfl, ?_⟩⟩
    have hlen : (cstr c.uname.val).length ≤ 255 :=
      Nat.le_trans (cstr_length_le _) c.uname.property.2
    unfold authStatus
    rw [credentialsAccepted_congr us hu.cstr hpw.cstr, hu.cstr, List.take_of_length_le hlen]
    cases credentialsAccepted us c.uname.val c.passwd.val <;> exact ⟨rfl, rfl⟩
  | failed e after =>
    rw [hr] at ht
    exact absurd (hp.symm.trans ht.1) (by decide)
  | more =>
    rw [hr] at ht
    have hno := ht.1
    rw [hp] at hno
    cases hno

theorem requestRun_done {stale bs rest : Bytes} {p : RequestParser}
    (h : requestRun (requestStart stale).parser bs = ((p, false), rest)) (hp : p.state = .done) :
    ∃ rsv m, bs = Connect.encode rsv m ++ rest ∧
      (storedDestination p.request).map (fun d => (d, p.request.destPort)) =
        some (m.host.text, m.port) := by
  have ht := requestFeed_tells ⟨⟨0, 0, staleArray destinationMaxLen stale, 0⟩, .version, 0, 0⟩
    (staleArray_length ..) bs
  have h : requestFeed (requestParserInit
    ⟨⟨0, 0, staleArray destinationMaxLen stale, 0⟩, .version, 0, 0⟩, false) bs =
    ((p, false), rest) := h
  rw [h] at ht
  cases hr : decodeRequest bs with
  | done m after =>
    rw [hr] at ht
    obtain ⟨-, -, rfl, hhost, hport⟩ := ht
    obtain ⟨rsv, hbs⟩ := decodeRequest_done.mp hr
    refine ⟨rsv, m, hbs, ?_⟩
    rw [hhost.text, hport]
    rfl
  | failed e after =>
    rw [hr] at ht
    cases e <;> exact absurd (hp.symm.trans ht.1) (by decide)
  | more =>
    rw [hr] at ht
    have hno := ht.1
    rw [hp] at hno
    cases hno

/-! ## What has been said -/

/-- What an observation has the client be told. -/
@[simp] def Obs.says : Obs → Bytes
  | .helloProcessed _ _ m => [socksVersion, m]
  | .authProcessed _ _ status => [authVersion, status]
  | .replied r => replyBytes r
  | _ => []

def verdicts (h : List Obs) : List Obs := h.filter fun o => o.says != []

@[simp] theorem verdicts_append (h l : List Obs) : verdicts (h ++ l) = verdicts h ++ verdicts l :=
  List.filter_append ..

/-- How a client is let through: the verdicts, the part of its stream they are
about, and who it is from then on. -/
inductive Cleared : List Obs → Bytes → Bytes → Prop
  | anyone {us : Option Users} {hello : Bytes} : Chosen us hello helloNoAuthenticationRequired →
      Cleared [.helloProcessed us hello helloNoAuthenticationRequired] hello []
  | known {us us' : Option Users} {hello auth user : Bytes} :
      Chosen us hello helloUsernamePassword → Judged us' auth 0x00 user →
      Cleared [.helloProcessed us hello helloUsernamePassword,
        .authProcessed us' (hello ++ auth) 0x00] (hello ++ auth) user

/-- How far a session can have come. -/
inductive Course : List Obs → Bytes → Bytes → Prop
  | silent : Course [] [] []
  | chosen {us : Option Users} {hello : Bytes} {m : UInt8} : Chosen us hello m →
      Course [.helloProcessed us hello m] hello []
  | judged {us us' : Option Users} {hello auth user : Bytes} {status : UInt8} :
      Chosen us hello helloUsernamePassword → Judged us' auth status user →
      Course [.helloProcessed us hello helloUsernamePassword,
        .authProcessed us' (hello ++ auth) status] (hello ++ auth) user
  | replied {ns : List Obs} {got user : Bytes} (r : UInt8) : Cleared ns got user →
      Course (ns ++ [.replied r]) got user

theorem Cleared.course {ns : List Obs} {got user : Bytes} (h : Cleared ns got user) :
    Course ns got user := by
  cases h with
  | anyone hm => exact .chosen hm
  | known hm hj => exact .judged hm hj

namespace View

/-- The verdicts so far, and who the client is. -/
structure Told (v : View) (ns : List Obs) (user : Bytes) : Prop where
  verdicts : Socks5d.verdicts v.hist = ns
  user : v.user = user

/-- The destination was asked for behind what the verdicts are about. -/
def Wanted (v : View) (got : Bytes) : Prop :=
  ∀ d, v.dest = some d → ∃ rsv m rest, v.cl.rx = got ++ Connect.encode rsv m ++ rest ∧
    d = (m.host.text, m.port)

/-- The transcript in each state. In the reading states the parser has seen what
was received and is not in the buffer. -/
def Script (v : View) : Prop :=
  match v.st with
  | none => v.Told [] [] ∧ v.dest = none
  | some .helloRead => v.Told [] [] ∧ v.dest = none ∧ ∃ seen, v.cl.rx = seen ++ v.rb ∧
      helloRun helloStart.parser seen = ((v.client.asHello.parser, false), [])
  | some .helloWrite => ∃ us hello, Chosen us hello v.client.asHello.method ∧
      v.Told [.helloProcessed us hello v.client.asHello.method] [] ∧ v.dest = none ∧
      v.cl.rx = hello ++ v.rb
  | some .authRead => ∃ us hello, Chosen us hello helloUsernamePassword ∧
      v.Told [.helloProcessed us hello helloUsernamePassword] [] ∧ v.dest = none ∧
      ∃ stale seen, v.cl.rx = hello ++ (seen ++ v.rb) ∧
        authRun (authStart stale).parser seen = ((v.client.asAuth.parser, false), [])
  | some .authWrite => ∃ us us' hello auth user, Chosen us hello helloUsernamePassword ∧
      Judged us' auth v.client.asAuth.status user ∧
      v.Told [.helloProcessed us hello helloUsernamePassword,
        .authProcessed us' (hello ++ auth) v.client.asAuth.status] user ∧ v.dest = none ∧
      v.cl.rx = hello ++ auth ++ v.rb
  | some .requestRead => ∃ ns got user, Cleared ns got user ∧ v.Told ns user ∧ v.dest = none ∧
      ∃ stale seen, v.cl.rx = got ++ (seen ++ v.rb) ∧
        requestRun (requestStart stale).parser seen = ((v.client.asRequest.parser, false), [])
  | some .requestResolv | some .connecting => ∃ ns got user, Cleared ns got user ∧
      v.Told ns user ∧ v.Wanted got
  | some .requestWrite => ∃ ns got user, Cleared ns got user ∧
      v.Told (ns ++ [.replied v.client.asRequest.reply]) user ∧ v.Wanted got
  | some .copy => ∃ ns got user, Cleared ns got user ∧
      v.Told (ns ++ [.replied replySucceeded]) user ∧ v.Wanted got
  | some .done | some .error => ∃ ns got user, Course ns got user ∧ v.Told ns user ∧ v.Wanted got

theorem Told.grow {v v' : View} {ns l : List Obs} {user : Bytes} (h : v.Told ns user)
    (hh : v'.hist = v.hist ++ l) (hl : Socks5d.verdicts l = []) (hu : v'.user = v.user) :
    v'.Told ns user :=
  ⟨by rw [hh, verdicts_append, hl, h.verdicts, List.append_nil], hu.trans h.user⟩

theorem Told.say {v v' : View} {ns l ms : List Obs} {user user' : Bytes} (h : v.Told ns user)
    (hh : v'.hist = v.hist ++ l) (hl : Socks5d.verdicts l = ms) (hu : v'.user = user') :
    v'.Told (ns ++ ms) user' :=
  ⟨by rw [hh, verdicts_append, hl, h.verdicts], hu⟩

theorem wanted_none {v : View} {got : Bytes} (h : v.dest = none) : v.Wanted got := fun d hd => by
  rw [h] at hd
  cases hd

theorem Wanted.grow {v v' : View} {got bs : Bytes} (h : v.Wanted got) (hd : v'.dest = v.dest)
    (hrx : v'.cl.rx = v.cl.rx ++ bs) : v'.Wanted got := fun d hd' => by
  obtain ⟨rsv, m, rest, hr, he⟩ := h d (hd ▸ hd')
  exact ⟨rsv, m, rest ++ bs, by rw [hrx, hr, List.append_assoc], he⟩

/-- Nothing the transcript looks at has changed. -/
theorem Script.congr {v v' : View} (h : v.Script) {l : List Obs} (hst : v'.st = v.st)
    (hh : v'.hist = v.hist ++ l) (hl : Socks5d.verdicts l = []) (hu : v'.user = v.user)
    (hd : v'.dest = v.dest) (hrx : v'.cl.rx = v.cl.rx) (hrb : v'.rb = v.rb)
    (hcl : v'.client = v.client) : v'.Script := by
  have htold : ∀ ns user, v.Told ns user → v'.Told ns user := fun ns user ht => ht.grow hh hl hu
  have hwanted : ∀ got, v.Wanted got → v'.Wanted got := fun got ha => by
    unfold Wanted
    rw [hd, hrx]
    exact ha
  unfold Script at h ⊢
  rw [hst, hd, hrx, hrb, hcl]
  split at h
  · exact ⟨htold _ _ h.1, h.2⟩
  · exact ⟨htold _ _ h.1, h.2⟩
  · obtain ⟨us, hello, hm, ht, h⟩ := h
    exact ⟨us, hello, hm, htold _ _ ht, h⟩
  · obtain ⟨us, hello, hm, ht, h⟩ := h
    exact ⟨us, hello, hm, htold _ _ ht, h⟩
  · obtain ⟨us, us', hello, auth, user, hm, hj, ht, h⟩ := h
    exact ⟨us, us', hello, auth, user, hm, hj, htold _ _ ht, h⟩
  · obtain ⟨ns, got, user, hc, ht, h⟩ := h
    exact ⟨ns, got, user, hc, htold _ _ ht, h⟩
  all_goals
    obtain ⟨ns, got, user, hc, ht, ha⟩ := h
    exact ⟨ns, got, user, hc, htold _ _ ht, hwanted _ ha⟩

/-- Every state is one a session can have come to. -/
theorem Script.course {v : View} (h : v.Script) :
    ∃ ns got user, Course ns got user ∧ v.Told ns user ∧ v.Wanted got := by
  unfold Script at h
  split at h
  · exact ⟨_, _, _, .silent, h.1, wanted_none h.2⟩
  · exact ⟨_, _, _, .silent, h.1, wanted_none h.2.1⟩
  · obtain ⟨us, hello, hm, ht, hd, -⟩ := h
    exact ⟨_, _, _, .chosen hm, ht, wanted_none hd⟩
  · obtain ⟨us, hello, hm, ht, hd, -⟩ := h
    exact ⟨_, _, _, .chosen hm, ht, wanted_none hd⟩
  · obtain ⟨us, us', hello, auth, user, hm, hj, ht, hd, -⟩ := h
    exact ⟨_, _, _, .judged hm hj, ht, wanted_none hd⟩
  · obtain ⟨ns, got, user, hc, ht, hd, -⟩ := h
    exact ⟨_, _, _, hc.course, ht, wanted_none hd⟩
  · obtain ⟨ns, got, user, hc, ht, ha⟩ := h
    exact ⟨_, _, _, hc.course, ht, ha⟩
  · obtain ⟨ns, got, user, hc, ht, ha⟩ := h
    exact ⟨_, _, _, hc.course, ht, ha⟩
  · obtain ⟨ns, got, user, hc, ht, ha⟩ := h
    exact ⟨_, _, _, .replied _ hc, ht, ha⟩
  · obtain ⟨ns, got, user, hc, ht, ha⟩ := h
    exact ⟨_, _, _, .replied _ hc, ht, ha⟩
  · exact h
  · exact h

/-- The end of a session leaves its transcript as it is. -/
theorem Script.ended {v v' : View} (h : v.Script) {l : List Obs} {b : Bytes}
    (hst : v'.st = some .done ∨ v'.st = some .error) (hh : v'.hist = v.hist ++ l)
    (hl : Socks5d.verdicts l = []) (hu : v'.user = v.user) (hd : v'.dest = v.dest)
    (hrx : v'.cl.rx = v.cl.rx ++ b) : v'.Script := by
  obtain ⟨ns, got, user, hc, ht, hw⟩ := h.course
  have hcourse : ∃ ns got user, Course ns got user ∧ v'.Told ns user ∧ v'.Wanted got :=
    ⟨ns, got, user, hc, ht.grow hh hl hu, hw.grow hd hrx⟩
  unfold Script
  rcases hst with hst | hst <;> rw [hst] <;> exact hcourse

end View

theorem Obs.says_of_running {o : Obs} (h : o.running = true) : o.says = [] := by
  cases o <;> first | rfl | cases h

theorem RelayMove.received_more {v v' : View} (h : RelayMove v v') :
    ∃ bs, v'.cl.rx = v.cl.rx ++ bs := by
  cases h with
  | received d bs | eof d bs | unread d bs | sent d bs | unsent d bs | shut d bs =>
    cases d <;> first | exact ⟨bs, rfl⟩ | exact ⟨[], (List.append_nil _).symm⟩
  | network cl og hcl => exact ⟨[], by rw [List.append_nil]; exact hcl.1⟩
  | _ => exact ⟨[], (List.append_nil _).symm⟩

theorem RelayMove.script {v v' : View} (h : RelayMove v v') (hp : v.Tunnel) (hs : v.Script) :
    v'.Script := by
  obtain ⟨l, hh, hrun⟩ := h.grows
  obtain ⟨-, hd, hu⟩ := h.keeps
  obtain ⟨bs, hrx⟩ := h.received_more
  have hl : verdicts l = [] := List.filter_eq_nil_iff.mpr fun o ho => by
    rw [Obs.says_of_running (hrun o ho)]
    decide
  rcases h.tunnel hp with hst' | hst'
  · have hst : v.st = some .copy := by
      cases h with
      | unshut | finished | broken => cases hst'
      | network => exact hst'
      | _ => assumption
    unfold View.Script at hs ⊢
    rw [hst] at hs
    rw [hst']
    obtain ⟨ns, got, user, hc, ht, hw⟩ := hs
    exact ⟨ns, got, user, hc, ht.grow hh hl hu, hw.grow hd hrx⟩
  · exact hs.ended hst' hh hl hu hd hrx

theorem consumed_eq {v : View} {got rest : Bytes} (h : v.cl.rx = got ++ rest) :
    v.consumed rest = got := by
  unfold View.consumed
  rw [h, List.length_append, Nat.add_sub_cancel, List.take_left]

theorem methodChoice_cases (us : Option Users) (methods : Bytes) :
    methodChoice us methods = helloUsernamePassword ∨
      methodChoice us methods = helloNoAuthenticationRequired ∨
      methodChoice us methods = helloNoAcceptableMethods := by
  unfold methodChoice
  split
  · exact Or.inl rfl
  · split
    · exact Or.inr (Or.inl rfl)
    · exact Or.inr (Or.inr rfl)

/-- The only method besides those two lets everyone in. -/
theorem Chosen.anyone {us : Option Users} {hello : Bytes} {m : UInt8} (h : Chosen us hello m)
    (h1 : m ≠ helloNoAcceptableMethods) (h2 : m ≠ helloUsernamePassword) :
    m = helloNoAuthenticationRequired := by
  obtain ⟨methods, -, rfl⟩ := h
  rcases methodChoice_cases us methods.val with hm | hm | hm
  · exact absurd hm h2
  · exact hm
  · exact absurd hm h1

/-- A request that has been parsed to its end stores the destination it names. -/
theorem View.Script.requested {v : View} (hc : v.Script) (hs : v.Sane)
    (hst : v.st = some .requestRead) {p : RequestParser} {rest : Bytes}
    (hrun : requestRun v.client.asRequest.parser v.rb = ((p, false), rest)) (hp : p.state = .done) :
    ∃ ns got user, Cleared ns got user ∧ v.Told ns user ∧
      ∀ v' : View, v'.dest = (v.storeDest p.request).dest → v'.cl.rx = v.cl.rx → v'.Wanted got := by
  simp only [Sane, hst] at hs
  obtain ⟨-, -, -, q, hq, hstop, -⟩ := hs
  have hparser : v.client.asRequest.parser = q.parser := by rw [hq]; rfl
  simp only [Script, hst] at hc
  obtain ⟨ns, got, user, hcl, ht, -, stale, seen, hseen, hbefore⟩ := hc
  rw [hparser] at hbefore hrun
  obtain ⟨rsv, m, hbs, hdest⟩ :=
    requestRun_done ((feed_resume (requestStart_running stale).1 hstop hbefore).trans hrun) hp
  refine ⟨ns, got, user, hcl, ht, fun v' hd hrx d he => ?_⟩
  refine ⟨rsv, m, rest, ?_, ?_⟩
  · rw [hrx, hseen, hbs, List.append_assoc]
  · rw [hd] at he
    exact Option.some.inj (he.symm.trans hdest)

/-- Every move keeps to the script. -/
theorem Move.script {strict : Prop} {v v' : View} (h : Move strict v v') (hs : v.Sane)
    (hc : v.Script) : v'.Script := by
  by_cases hp : v.Tunnel
  · exact (h.relay hp).script hp hc
  cases h with
  | start t hst =>
    simp only [Sane, hst] at hs
    simp only [Script, hst] at hc
    obtain ⟨-, hrb, -, -, -, hrx, -⟩ := hs
    exact ⟨hc.1.grow (l := [.entered .helloRead t]) rfl rfl rfl, hc.2, [], hrx.trans hrb.symm, rfl⟩
  | @received st bs hst hrd hrb =>
    have hrx : v.cl.rx = v.cl.rx ++ v.rb := by rw [hrb, List.append_nil]
    simp only [Script, hst] at hc ⊢
    cases st with
    | helloRead =>
      obtain ⟨ht, hd, seen, hseen, hrun⟩ := hc
      refine ⟨ht.grow (List.append_nil _).symm rfl rfl, hd, seen, ?_, hrun⟩
      rw [hseen, hrb, List.append_nil]
    | authRead =>
      obtain ⟨us, hello, hm, ht, hd, stale, seen, hseen, hrun⟩ := hc
      refine ⟨us, hello, hm, ht.grow (List.append_nil _).symm rfl rfl, hd, stale, seen, ?_, hrun⟩
      rw [hseen, hrb, List.append_nil, List.append_assoc]
    | requestRead =>
      obtain ⟨ns, got, user, hcl, ht, hd, stale, seen, hseen, hrun⟩ := hc
      refine ⟨ns, got, user, hcl, ht.grow (List.append_nil _).symm rfl rfl, hd, stale, seen, ?_, hrun⟩
      rw [hseen, hrb, List.append_nil, List.append_assoc]
    | _ => cases hrd
  | recvLost t hst | sendLost t hst =>
    exact hc.ended (l := [.entered .error t]) (b := []) (Or.inr rfl) rfl rfl rfl rfl
      (List.append_nil _).symm
  | sent n hst =>
    exact hc.congr (l := []) rfl (List.append_nil _).symm rfl rfl rfl rfl rfl rfl
  | helloMore p hst hrun hd =>
    simp only [Sane, hst] at hs
    obtain ⟨-, -, -, q, hq, hstop⟩ := hs
    have hparser : v.client.asHello.parser = q.parser := by rw [hq]; rfl
    simp only [Script, readHello, hst] at hc ⊢
    obtain ⟨ht, hdest, seen, hseen, hbefore⟩ := hc
    rw [hparser] at hbefore hrun
    refine ⟨ht.grow (List.append_nil _).symm rfl rfl, hdest, seen ++ v.rb, ?_, ?_⟩
    · rw [hseen, List.append_nil]
    · exact (feed_resume helloStart_running hstop hbefore).trans hrun
  | helloBad p rest t hst | authBad p rest t hst | requestBad p rest t hst =>
    exact hc.ended (l := [.entered .error t]) (b := []) (Or.inr rfl) rfl rfl rfl rfl
      (List.append_nil _).symm
  | helloDone us p rest t hst hrun hdone =>
    simp only [Sane, hst] at hs
    obtain ⟨-, -, -, q, hq, hstop⟩ := hs
    have hparser : v.client.asHello.parser = q.parser := by rw [hq]; rfl
    simp only [Script, hst] at hc
    obtain ⟨ht, hdest, seen, hseen, hbefore⟩ := hc
    rw [hparser] at hbefore hrun
    obtain ⟨hello, hbs, hm⟩ :=
      helloRun_done ((feed_resume helloStart_running hstop hbefore).trans hrun) hdone
    have hrx : v.cl.rx = hello ++ rest := hseen.trans hbs
    refine ⟨us, hello, hm us, ?_, hdest, hrx⟩
    refine ht.say (l := [.helloProcessed us (v.consumed rest) (helloMethod us p.data),
      .entered .helloWrite t]) (by simp) ?_ ht.user
    rw [consumed_eq hrx]
    rfl
  | helloRefused t hst | requestRefusalSent t hst =>
    exact hc.ended (l := [.entered .done t]) (b := []) (Or.inl rfl) rfl rfl rfl rfl
      (List.append_nil _).symm
  | authRefused t hst =>
    exact hc.ended (l := [.entered .done t]) (b := []) (Or.inl rfl) rfl rfl rfl rfl
      (List.append_nil _).symm
  | helloToAuth stale t hst hm =>
    simp only [Script, hst] at hc
    obtain ⟨us, hello, hch, ht, hdest, hrx⟩ := hc
    rw [hm] at hch ht
    exact ⟨us, hello, hch, ht.grow (l := [.entered .authRead t]) rfl rfl rfl, hdest, stale, [], hrx,
      rfl⟩
  | helloToRequest stale t hst h1 h2 =>
    simp only [Script, hst] at hc
    obtain ⟨us, hello, hch, ht, hdest, hrx⟩ := hc
    have hany := hch.anyone h1 h2
    rw [hany] at hch ht
    exact ⟨_, hello, [], .anyone hch, ht.grow (l := [.entered .requestRead t]) rfl rfl rfl, hdest,
      stale, [], hrx, rfl⟩
  | authMore p hst hrun hd =>
    simp only [Sane, hst] at hs
    obtain ⟨-, -, -, q, hq, hstop⟩ := hs
    have hparser : v.client.asAuth.parser = q.parser := by rw [hq]; rfl
    simp only [Script, readAuth, hst] at hc ⊢
    obtain ⟨us, hello, hch, ht, hdest, stale, seen, hseen, hbefore⟩ := hc
    rw [hparser] at hbefore hrun
    refine ⟨us, hello, hch, ht.grow (List.append_nil _).symm rfl rfl, hdest, stale, seen ++ v.rb,
      ?_, ?_⟩
    · rw [hseen, List.append_nil]
    · exact (feed_resume (authStart_running stale) hstop hbefore).trans hrun
  | authDone us' p rest t hst hrun hdone =>
    simp only [Sane, hst] at hs
    obtain ⟨-, -, -, q, hq, hstop⟩ := hs
    have hparser : v.client.asAuth.parser = q.parser := by rw [hq]; rfl
    simp only [Script, hst] at hc
    obtain ⟨us, hello, hch, ht, hdest, stale, seen, hseen, hbefore⟩ := hc
    rw [hparser] at hbefore hrun
    obtain ⟨auth, hbs, hj⟩ :=
      authRun_done ((feed_resume (authStart_running stale) hstop hbefore).trans hrun) hdone
    have hrx : v.cl.rx = hello ++ auth ++ rest := by rw [hseen, hbs, List.append_assoc]
    refine ⟨us, us', hello, auth, _, hch, hj us', ?_, hdest, hrx⟩
    refine ht.say (l := [.authProcessed us' (v.consumed rest) (authStatus us' p),
      .entered .authWrite t]) (by simp [processAuth]) ?_ ?_
    · rw [consumed_eq hrx]
      rfl
    · show (if _ then _ else v.user) = _
      rw [ht.user]
  | authToRequest stale t hst hok =>
    simp only [Script, hst] at hc
    obtain ⟨us, us', hello, auth, user, hch, hj, ht, hdest, hrx⟩ := hc
    rw [hok] at hj ht
    exact ⟨_, _, user, .known hch hj, ht.grow (l := [.entered .requestRead t]) rfl rfl rfl, hdest,
      stale, [], hrx, rfl⟩
  | requestMore p hst hrun hd =>
    simp only [Sane, hst] at hs
    obtain ⟨-, -, -, q, hq, hstop, -⟩ := hs
    have hparser : v.client.asRequest.parser = q.parser := by rw [hq]; rfl
    simp only [Script, readRequest, hst] at hc ⊢
    obtain ⟨ns, got, user, hcl, ht, hdest, stale, seen, hseen, hbefore⟩ := hc
    rw [hparser] at hbefore hrun
    refine ⟨ns, got, user, hcl, ht.grow (List.append_nil _).symm rfl rfl, hdest, stale,
      seen ++ v.rb, ?_, ?_⟩
    · rw [hseen, List.append_nil]
    · exact (feed_resume (requestStart_running stale).1 hstop hbefore).trans hrun
  | requestRefused p rest reply t hst =>
    simp only [Script, hst] at hc
    obtain ⟨ns, got, user, hcl, ht, hdest, -⟩ := hc
    exact ⟨ns, got, user, hcl, ht.say (l := [.requestProcessed rest, .replied reply,
      .entered .requestWrite t]) (by simp) rfl ht.user, wanted_none hdest⟩
  | requestUnsubmitted p rest t hst hrun hdone =>
    obtain ⟨ns, got, user, hcl, ht, hw⟩ := hc.requested hs hst hrun hdone
    exact ⟨ns, got, user, hcl, ht.say (l := [.requestProcessed rest, .dnsSubmit none,
      .replied replyGeneralFailure, .entered .requestWrite t]) (by simp) rfl ht.user, hw _ rfl rfl⟩
  | requestSubmitted p rest k t hst hrun hdone =>
    obtain ⟨ns, got, user, hcl, ht, hw⟩ := hc.requested hs hst hrun hdone
    exact ⟨ns, got, user, hcl, ht.grow (l := [.requestProcessed rest, .dnsSubmit (some k),
      .entered .requestResolv t]) (by simp) rfl rfl, hw _ rfl rfl⟩
  | requestLiteral p rest t hst hrun hdone =>
    obtain ⟨ns, got, user, hcl, ht, hw⟩ := hc.requested hs hst hrun hdone
    exact ⟨ns, got, user, hcl, ht.grow (l := [.requestProcessed rest, .entered .connecting t])
      (by simp) rfl rfl, hw _ rfl rfl⟩
  | dnsFailed t hst =>
    simp only [Script, hst] at hc
    obtain ⟨ns, got, user, hcl, ht, hw⟩ := hc
    exact ⟨ns, got, user, hcl, ht.say (l := [.dnsConsumed [], .replied replyHostUnreachable,
      .entered .requestWrite t]) (by simp) rfl ht.user, hw⟩
  | dnsFound t hst =>
    simp only [Script, hst] at hc
    obtain ⟨ns, got, user, hcl, ht, hw⟩ := hc
    exact ⟨ns, got, user, hcl, ht.grow (l := [.dnsConsumed v.found, .entered .connecting t])
      (by simp) rfl rfl, hw⟩
  | attemptFailed a rest e | attemptUnregistered a rest | attemptOpened a rest fd k =>
    exact hc.congr rfl rfl rfl rfl rfl rfl rfl rfl
  | resolved | exhausted | reported | settled =>
    exact hc.congr (l := []) rfl (List.append_nil _).symm rfl rfl rfl rfl rfl rfl
  | gaveUp t hst =>
    simp only [Script, hst] at hc
    obtain ⟨ns, got, user, hcl, ht, hw⟩ := hc
    exact ⟨ns, got, user, hcl, ht.say (l := [.connectFailed, .replied v.orig.asConn.reply,
      .entered .requestWrite t]) (by simp) rfl ht.user, hw⟩
  | connected fd t hst =>
    simp only [Script, hst] at hc
    obtain ⟨ns, got, user, hcl, ht, hw⟩ := hc
    exact ⟨ns, got, user, hcl, ht.say (l := [.completed none v.og.reported (some v.og.conn),
      .replied replySucceeded, .entered .requestWrite t]) (by simp) rfl ht.user, hw⟩
  | originFailed fd e hst =>
    exact hc.congr (l := [.completed (some e) v.og.reported (some v.og.conn)]) rfl rfl rfl rfl rfl
      rfl rfl rfl
  | originGaveUp fd e t hst =>
    simp only [Script, hst] at hc
    obtain ⟨ns, got, user, hcl, ht, hw⟩ := hc
    exact ⟨ns, got, user, hcl, ht.say (l := [.completed (some e) v.og.reported (some v.og.conn),
      .connectFailed, .replied (errnoToSocksReply e), .entered .requestWrite t]) (by simp) rfl ht.user,
      hw⟩
  | connectTimedOut t hst =>
    exact hc.congr (l := [.timedOut .connect t]) rfl rfl rfl rfl rfl rfl rfl rfl
  | relayStarted t hst hr =>
    simp only [Script, hst] at hc
    obtain ⟨ns, got, user, hcl, ht, hw⟩ := hc
    rw [hr] at ht
    have hlog : ∀ rs : List LogRecord, verdicts (rs.map .logged) = [] := fun rs =>
      List.filter_eq_nil_iff.mpr fun o ho => by
        obtain ⟨r, -, rfl⟩ := List.mem_map.mp ho
        exact fun h => by cases h
    refine ⟨ns, got, user, hcl, ht.grow (startRelay_grown ..) ?_ rfl, hw⟩
    rw [verdicts_append, hlog]
    rfl
  | _ => exact absurd (Or.inl ‹v.st = some .copy›) hp

theorem fresh_script (fd : Fd) (t : Int) : (View.fresh fd t).Script := ⟨⟨rfl, rfl⟩, rfl⟩

theorem Reached.script {strict : Prop} {v : View} (h : Reached strict v) : v.Script :=
  h.induct fresh_script fun hs hv hm => hm.script hs hv

theorem Obs.says_of_closing {o : Obs} (h : o.closing = true) : o.says = [] := by
  cases o <;> first | rfl | cases h

/-- Every session of a run, live or ended, has kept to the script. -/
theorem Orderly.script {τ : Terms} {ρ : Roster} {w : World} (h : Orderly τ ρ w) {v : View}
    (hs : w.Session v) : v.Script :=
  h.every hs Reached.script fun {u l} _ hf hu => by
    have hl : verdicts l = [] := List.filter_eq_nil_iff.mpr fun o ho => by
      rw [Obs.says_of_closing (hf.closing o ho)]
      decide
    exact hu.congr rfl rfl hl rfl rfl rfl rfl rfl

end Socks5d
