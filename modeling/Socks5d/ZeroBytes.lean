import Socks5d.Transcript
import Socks5d.UserCalls

/-! # Zero bytes in what the client sends

The fields of the messages carry their length; the strings they are stored as
end at the first zero byte. What is compared with the store, and what is looked
up and logged, is the string. -/
namespace Socks5d
open Buffer Ctx View Lib.CString Lib.Slots

/-! ## AUTH -/

theorem authProcess_eq {c : SCtx} {a : AuthSt} (hcl : c.s.client = .auth a)
    (hw : WF c.s.writeBuffer) (he : c.s.writeBuffer.unread = []) (hl : 2 ≤ c.s.writeBuffer.limit) :
    (authProcess c).1.s.writeBuffer.unread = [authVersion, authStatus c.g.users a.parser] ∧
      (credentialsAccepted c.g.users a.parser.uname a.parser.passwd = true →
        (authProcess c).1.s.authenticatedUser = (cstr a.parser.uname).take 255) := by
  obtain ⟨wb, hm, -, -, hun⟩ := marshall_empty hw he
    (m := [authVersion, authStatus c.g.users a.parser]) (List.cons_ne_nil _ _) hl
  have ha : c.s.client.asAuth = a := by rw [hcl]; rfl
  unfold authProcess authStatus at *
  simp only [ha]
  cases hok : credentialsAccepted c.g.users a.parser.uname a.parser.passwd with
  | true =>
    simp only [hok, if_true] at hm hun ⊢
    simp only [authMarshall, Ctx.note, Ctx.setClient, Ctx.modify, hm]
    exact ⟨hun, fun _ => rfl⟩
  | false =>
    simp only [hok, Bool.false_eq_true, if_false] at hm hun ⊢
    simp only [authMarshall, Ctx.note, Ctx.setClient, Ctx.metrics, Ctx.modify, hm]
    exact ⟨hun, False.elim⟩

/-- Status 00 is the answer to an entry of the store, byte for byte, and its name
is who the session knows from then on. -/
structure Credentials.Compared (m : Credentials) (t : List (Str × Str)) (c' : SCtx) : Prop where
  answer : c'.s.writeBuffer.unread = [authVersion, 0x00] ↔ (m.uname.val, m.passwd.val) ∈ t
  user : c'.s.writeBuffer.unread = [authVersion, 0x00] → c'.s.authenticatedUser = m.uname.val

/-- Without a zero byte no entry of the same name stands before that of the user
and the password; with one, the strings up to it are not accepted. -/
def Credentials.Plain (m : Credentials) (t : List (Str × Str)) : Prop :=
  if (0 : UInt8) ∈ m.uname.val ∨ (0 : UInt8) ∈ m.passwd.val then
    value t (cstr m.uname.val) ≠ some (cstr m.passwd.val)
  else (m.uname.val, m.passwd.val) ∈ t → value t m.uname.val = some m.passwd.val

theorem sought_field (f : Lib.Readers.Field) : sought f.val = cstr f.val :=
  List.take_of_length_le (Nat.le_trans (cstr_length_le _) (Nat.le_succ_of_le f.property.2))

theorem Users.Wf.accepts_iff {u : Users} (h : u.Wf) {p : AuthParser} {m : Credentials}
    (hu : Terminated p.uname m.uname.val) (hp : Terminated p.passwd m.passwd.val) :
    authStatus (some u) p = 0x00 ↔ value u.table (cstr m.uname.val) = some (cstr m.passwd.val) := by
  have hsame := credentialsAccepted_congr (some u) hu.cstr hp.cstr
  rw [← sought_field, ← sought_field, ← h.check_iff, authStatus, hsame]
  show (if u.usersCheck m.uname.val m.passwd.val = true then (0 : UInt8) else 1) = 0 ↔ _
  cases u.usersCheck m.uname.val m.passwd.val <;> decide

/-- AUTH compares the strings up to their first zero byte, so it compares what
was sent for the messages that are plain, and only for them. -/
theorem credentials_compared (calls : List UserCall) (p : AuthParser) (hu : p.uname.length = 256)
    (hp : p.passwd.length = 256) {b : Buffer} (hb : WF b) (he : b.unread = []) (pieces : List Bytes)
    (hfit : ∀ bs ∈ pieces, bs.length ≤ b.limit) {m : Credentials} (after : Bytes)
    (hin : pieces.flatten = m.encode ++ after) {c : SCtx} {status : UInt8}
    (hcl : c.s.client = .auth ⟨(authPieces pieces b p).2.1.1, status⟩)
    (hus : c.g.users = some (usersAfter calls)) (hw : WF c.s.writeBuffer)
    (hwe : c.s.writeBuffer.unread = []) (hwl : 2 ≤ c.s.writeBuffer.limit) :
    m.Compared (usersAfter calls).table (authProcess c).1 ↔ m.Plain (usersAfter calls).table := by
  have hwf := usersAfter_wf calls
  generalize usersAfter calls = u at hus hwf ⊢
  obtain ⟨-, huname, hpasswd, -⟩ := (auth_exact p hu hp hb he pieces hfit).2.2.2.2.2 m after hin
  generalize (authPieces pieces b p).2.1.1 = q at hcl huname hpasswd
  obtain ⟨hans, huser⟩ := authProcess_eq hcl hw hwe hwl
  rw [hus] at hans huser
  have haccepts := hwf.accepts_iff huname hpasswd
  have hstatus : (authProcess c).1.s.writeBuffer.unread = [authVersion, 0x00] ↔
      value u.table (cstr m.uname.val) = some (cstr m.passwd.val) := by
    rw [hans, ← haccepts, List.cons.injEq, List.cons.injEq]
    exact ⟨fun h => h.2.1, fun h => ⟨rfl, h, rfl⟩⟩
  unfold Credentials.Plain
  split
  · next hzero =>
    -- an entry of the store holds no zero byte
    have hout : (m.uname.val, m.passwd.val) ∉ u.table := by
      intro hmem
      obtain ⟨⟨h1, -⟩, h2, -⟩ := hwf.mem_table hmem
      rcases hzero with h0 | h0
      · exact zero_notMem_cstr m.uname.val (h1.symm ▸ h0)
      · exact zero_notMem_cstr m.passwd.val (h2.symm ▸ h0)
    refine ⟨fun hc hv => hout (hc.answer.mp (hstatus.mpr hv)), fun hv => ⟨?_, ?_⟩⟩
    · exact ⟨fun ha => absurd (hstatus.mp ha) hv, fun hm => absurd hm hout⟩
    · exact fun ha => absurd (hstatus.mp ha) hv
  · next hzero =>
    obtain ⟨h1, h2⟩ := not_or.mp hzero
    have hplain := hstatus
    rw [cstr_eq_self h1, cstr_eq_self h2] at hplain
    refine ⟨fun hc hm => hplain.mp (hc.answer.mpr hm), fun hfirst => ⟨?_, fun ha => ?_⟩⟩
    · exact ⟨fun ha => value_mem (hplain.mp ha), fun hm => hplain.mpr (hfirst hm)⟩
    · have hok : credentialsAccepted (some u) q.uname q.passwd = true := by
        have hv := haccepts.mpr (hstatus.mp ha)
        unfold authStatus at hv
        split at hv
        · assumption
        · cases hv
      rw [huser hok, huname.cstr, cstr_eq_self h1, List.take_of_length_le m.uname.property.2]

/-- A session about to process the credentials that have come in. -/
def Ctx.credited (calls : List UserCall) (bs : Bytes) : SCtx :=
  let c := (Boot.open.start.run (Input.round 1 0 [])).ctx 0
  let q := (authPieces [bs] (bufferInit 16 (List.replicate 16 0))
    ⟨.done, 9, 9, 9, List.replicate 256 0, List.replicate 256 0⟩).2.1.1
  { c with s := { c.s with client := .auth ⟨q, 1⟩ }, g := { c.g with users := some (usersAfter calls) } }

theorem credentials_compared_known :
    let m : Credentials := ⟨⟨[97, 110, 97], by decide⟩, ⟨[112, 119], by decide⟩⟩
    let calls := [UserCall.add [97, 110, 97] [112, 119]]
    m.Compared (usersAfter calls).table
      (authProcess (Ctx.credited calls [1, 3, 97, 110, 97, 2, 112, 119])).1 :=
  (credentials_compared [UserCall.add [97, 110, 97] [112, 119]]
    ⟨.done, 9, 9, 9, List.replicate 256 0, List.replicate 256 0⟩ List.length_replicate
    List.length_replicate (b := bufferInit 16 (List.replicate 16 0))
    (bufferInit_wf List.length_replicate) (bufferInit_unread _ _)
    [[1, 3, 97, 110, 97, 2, 112, 119]] (by decide)
    (m := ⟨⟨[97, 110, 97], by decide⟩, ⟨[112, 119], by decide⟩⟩) [] rfl
    (c := Ctx.credited _ [1, 3, 97, 110, 97, 2, 112, 119]) rfl rfl
    accepted_greetable.write accepted_greetable.silent (by decide +kernel)).mpr
    (by unfold Credentials.Plain; decide +kernel)

/-- A user name that goes on behind a zero byte is accepted for what is before it. -/
theorem credentials_cut :
    let m : Credentials := ⟨⟨[97, 110, 97, 0, 120], by decide⟩, ⟨[112, 119], by decide⟩⟩
    let calls := [UserCall.add [97, 110, 97] [112, 119]]
    let c := Ctx.credited calls [1, 5, 97, 110, 97, 0, 120, 2, 112, 119]
    m.encode = [1, 5, 97, 110, 97, 0, 120, 2, 112, 119] ∧
      ¬ m.Compared (usersAfter calls).table (authProcess c).1 ∧
      (authProcess c).1.s.authenticatedUser = [97, 110, 97] :=
  ⟨rfl, fun h => absurd (h.answer.mp (by decide +kernel)) (by decide +kernel), by decide +kernel⟩

/-! ## REQUEST -/

/-- All jobs that the DNS worker was handed. -/
def Ctx.jobs (c : SCtx) : List DnsJob := (c.g.dnsWorker.map (·.submitted)).getD []

/-- The name and the port that were asked for are the destination on record, and
what the worker is handed to look up, if the job could be submitted; otherwise
it is handed nothing. -/
structure HostUsed (name : Bytes) (port : UInt16) (fd : Fd) (c : SCtx) (r : SCtx × SocksState) :
    Prop where
  recorded : r.1.s.destinationSet = true ∧ r.1.s.destination = name ∧ r.1.s.destinationPort = port
  lookedUp : r.1.jobs =
    c.jobs ++ if r.2 = .requestResolv then [⟨name, decimal port.toNat, fd, c.self⟩] else []

/-- What `request_process` does to the destination and the jobs. -/
structure Named (d : Bytes) (port : UInt16) (l : List DnsJob) (c c' : SCtx) : Prop where
  dest : c'.s.destination = d
  port : c'.s.destinationPort = port
  set : c'.s.destinationSet = true
  jobs : c'.jobs = c.jobs ++ l

section Named
variable {d : Bytes} {port : UInt16} {l : List DnsJob} {c c' c'' : SCtx}

theorem marshalReply_named (h : Named d port l c c') (reply : UInt8) :
    Named d port l c (marshalReply reply c').1 := by
  unfold marshalReply
  dsimp only
  split <;> exact ⟨h.dest, h.port, h.set, h.jobs⟩

theorem replyAndArm_named (h : Named d port l c c') (reply : UInt8) (fd : Fd) :
    Named d port l c (replyAndArm reply fd c').1 := by
  have h1 := marshalReply_named h reply
  unfold replyAndArm
  generalize marshalReply reply c' = r at h1 ⊢
  obtain ⟨c1, ok⟩ := r
  cases ok with
  | false => exact h1
  | true =>
    unfold Ctx.selectorSetInterest
    dsimp only
    cases (c1.sel.selectorSetInterest fd opWrite).2 <;> exact ⟨h1.dest, h1.port, h1.set, h1.jobs⟩

theorem replyAndArm_state (reply : UInt8) (fd : Fd) :
    (replyAndArm reply fd c').2 ≠ .requestResolv := by
  unfold replyAndArm
  split
  · simp
  · split <;> simp

/-- The worker is handed the host and the port if there is room for the job. -/
theorem submitted_named (h : Named d port [] c c') {r : Socks5Request}
    (hd : cstr (copyBounded maxFqdnLen r.fqdn) = d) (hp : r.destPort = port) (fd : Fd) :
    Named d port
      (if (submitted fd r c').2 then [⟨d, decimal port.toNat, fd, c'.self⟩] else []) c
      (submitted fd r c').1 := by
  have hjobs := h.jobs
  unfold submitted
  cases hw : c'.g.dnsWorker with
  | none => exact h
  | some w =>
    unfold dnsWorkerSubmit
    unfold Ctx.jobs at hjobs
    rw [hw, List.append_nil] at hjobs
    dsimp only
    rcases c'.os.call with ⟨os, e | _⟩
    · exact ⟨h.dest, h.port, h.set, h.jobs⟩
    · subst hd hp
      exact ⟨h.dest, h.port, h.set, congrArg (· ++ [_]) hjobs⟩

/-- A name is recorded up to its zero byte, and looked up if at all up to there. -/
theorem requestProcess_named {r : RequestSt} (hcl : c.s.client = .request r)
    (hst : r.parser.state = .done) {name : Lib.Readers.Field}
    (hhost : (Host.fqdn name).Stored r.parser.request) (fd : Fd) :
    HostUsed (cstr name.val) r.parser.request.destPort fd c (requestProcess fd c) := by
  obtain ⟨htype, hterm⟩ := hhost
  have hr : c.s.client.asRequest = r := by rw [hcl]; rfl
  have hfqdn : r.parser.request.fqdn = cstr name.val := hterm.cstr
  have hlen : (cstr name.val).length ≤ 255 := Nat.le_trans (cstr_length_le _) name.property.2
  have hdest : r.parser.request.fqdn.take (destinationMaxLen - 1) = cstr name.val := by
    rw [hfqdn]
    exact List.take_of_length_le hlen
  have hhost : cstr (copyBounded maxFqdnLen r.parser.request.fqdn) = cstr name.val := by
    rw [cstr_copyBounded, hfqdn, cstr_cstr]
    exact List.take_of_length_le hlen
  have hno : ¬ (r.parser.state = .errorUnsupportedCmd ∨ r.parser.state = .errorUnsupportedAtyp) := by
    rw [hst]
    decide
  unfold requestProcess socks5StoreDestination Ctx.selectorSetInterest
  simp only [hr, if_neg hno, if_pos htype, hdest]
  generalize hc1 : ((c.note (.requestProcessed c.s.readBuffer.unread)).modify fun s =>
    { s with destination := cstr name.val, destinationPort := r.parser.request.destPort,
             destinationSet := true }) = c1
  have h1 : Named (cstr name.val) r.parser.request.destPort [] c c1 := by
    rw [← hc1]
    exact ⟨rfl, rfl, rfl, (List.append_nil _).symm⟩
  have hself : c1.self = c.self := by rw [← hc1]; rfl
  generalize c1.sel.selectorSetInterest fd opNoop = sel
  obtain ⟨sel, st⟩ := sel
  have h2 : Named (cstr name.val) r.parser.request.destPort [] c { c1 with sel := sel } :=
    ⟨h1.dest, h1.port, h1.set, h1.jobs⟩
  cases st with
  | success =>
    have h3 := submitted_named h2 hhost rfl fd
    dsimp only
    generalize submitted fd r.parser.request { c1 with sel := sel } = r3 at h3 ⊢
    obtain ⟨c3, ok⟩ := r3
    cases ok with
    | false =>
      have h4 : Named (cstr name.val) r.parser.request.destPort [] c
          (socks5SetFailure .dnsSubmitFailed (c3.note (.dnsSubmit none))) :=
        ⟨h3.dest, h3.port, h3.set, h3.jobs⟩
      have h5 := replyAndArm_named h4 replyGeneralFailure fd
      exact ⟨⟨h5.set, h5.dest, h5.port⟩, by rw [if_neg (replyAndArm_state _ fd)]; exact h5.jobs⟩
    | true =>
      rw [hself] at h3
      exact ⟨⟨h3.set, h3.dest, h3.port⟩, h3.jobs⟩
  | _ => exact ⟨⟨h2.set, h2.dest, h2.port⟩, h2.jobs⟩

end Named

/-- A request for a host by name is recorded and looked up as it was sent when
the name holds no zero byte, and only then. -/
theorem request_host_used (p : RequestParser) (hp : p.request.addr.length = 256) {b : Buffer}
    (hb : WF b) (he : b.unread = []) (pieces : List Bytes) (hfit : ∀ bs ∈ pieces, bs.length ≤ b.limit)
    (name : Lib.Readers.Field) (port : UInt16) (rsv : UInt8) (after : Bytes)
    (hin : pieces.flatten = Connect.encode rsv ⟨.fqdn name, port⟩ ++ after) {c : SCtx} {reply : UInt8}
    (hcl : c.s.client = .request ⟨(requestPieces pieces b p).2.1.1, reply⟩) (fd : Fd) :
    HostUsed name.val port fd c (requestProcess fd c) ↔ (0 : UInt8) ∉ name.val := by
  obtain ⟨hst, hhost, hport, -⟩ :=
    (request_exact p hp hb he pieces hfit).2.2.2.2.2.2 ⟨.fqdn name, port⟩ rsv after hin
  have hn := requestProcess_named hcl hst hhost fd
  rw [hport] at hn
  refine ⟨fun hu => ?_, fun hz => ?_⟩
  · have hd := hn.recorded.2.1
    rw [hu.recorded.2.1] at hd
    exact hd ▸ zero_notMem_cstr _
  · rw [cstr_eq_self hz] at hn
    exact hn

/-- A session about to process the request that has come in. -/
def Ctx.asked (bs : Bytes) : SCtx :=
  let c := (Boot.open.start.run (Input.round 1 0 [])).ctx 0
  let q := (requestPieces [bs] (bufferInit 16 (List.replicate 16 0))
    ⟨⟨0, 0, List.replicate 256 0, 0⟩, .done, 9, 9⟩).2.1.1
  { c with s := { c.s with client := .request ⟨q, 0⟩ } }

theorem request_host_used_plain :
    HostUsed [104, 105] 80 2 (Ctx.asked [5, 1, 0, 3, 2, 104, 105, 0, 80])
        (requestProcess 2 (Ctx.asked [5, 1, 0, 3, 2, 104, 105, 0, 80])) ∧
      (requestProcess 2 (Ctx.asked [5, 1, 0, 3, 2, 104, 105, 0, 80])).2 = .requestResolv :=
  ⟨(request_host_used ⟨⟨0, 0, List.replicate 256 0, 0⟩, .done, 9, 9⟩ List.length_replicate
    (b := bufferInit 16 (List.replicate 16 0)) (bufferInit_wf List.length_replicate)
    (bufferInit_unread _ _) [[5, 1, 0, 3, 2, 104, 105, 0, 80]] (by decide)
    ⟨[104, 105], by decide⟩ 80 0 [] rfl rfl 2).mpr (by decide), by decide +kernel⟩

/-- A name that goes on behind a zero byte: what is before it is looked up. -/
theorem request_host_cut :
    let c := Ctx.asked [5, 1, 0, 3, 3, 104, 0, 105, 0, 80]
    Connect.encode 0 ⟨.fqdn ⟨[104, 0, 105], by decide⟩, 80⟩ = [5, 1, 0, 3, 3, 104, 0, 105, 0, 80] ∧
      ¬ HostUsed [104, 0, 105] 80 2 c (requestProcess 2 c) ∧
      (requestProcess 2 c).1.s.destination = [104] ∧
      (requestProcess 2 c).1.jobs.map DnsJob.host = [[104]] :=
  ⟨rfl, fun h => absurd h.recorded.2.1 (by decide +kernel), by decide +kernel, by decide +kernel⟩

end Socks5d
