import Socks5d.Decoding
import Socks5d.Sessions

/-! # A message through a buffer

What a parser has come to after any number of reads, for each of the three
messages, and what HELLO answers. -/
namespace Socks5d
open Buffer Ctx View Lib.Incremental Lib.Readers Lib.Readers.Reading

/-! ## REQUEST -/

/-- `request_parser_init`, then `request_consume` after every read. -/
def requestPieces (pieces : List Bytes) (b : Buffer) (p : RequestParser) :
    Buffer × (RequestParser × Bool) × List Bytes :=
  feedPieces (fun b s => requestConsume b s.1 s.2) requestStop pieces b (requestParserInit p, false)

section Request
variable {p : RequestParser} {error : Bool} {rest bs : Bytes}

theorem RequestParser.Tells.state_done (h : p.Tells error rest (decodeRequest bs)) :
    p.state = .done ↔ ∃ m rsv after, bs = Connect.encode rsv m ++ after := by
  constructor
  · intro hd
    cases hr : decodeRequest bs with
    | done m after =>
      obtain ⟨rsv, he⟩ := decodeRequest_done.mp hr
      exact ⟨m, rsv, after, he⟩
    | failed e after =>
      rw [hr] at h
      cases e <;> exact absurd (hd.symm.trans h.1) (by decide)
    | more =>
      rw [hr] at h
      have hrun := h.1
      rw [hd] at hrun
      cases hrun
  · rintro ⟨m, rsv, after, he⟩
    rw [decodeRequest_done.mpr ⟨rsv, he⟩] at h
    exact h.1

/-- The state each refusal leads to. -/
def RequestFault.state : RequestFault → RequestState
  | .malformed => .error
  | .command => .errorUnsupportedCmd
  | .addressType => .errorUnsupportedAtyp

theorem RequestParser.Tells.state_failed (h : p.Tells error rest (decodeRequest bs))
    (e : RequestFault) : p.state = e.state ↔ ∃ after, decodeRequest bs = failed e after := by
  constructor
  · intro hd
    cases hr : decodeRequest bs with
    | done m after =>
      rw [hr] at h
      cases e <;> exact absurd (hd.symm.trans h.1) (by decide)
    | failed e' after =>
      rw [hr] at h
      refine ⟨after, ?_⟩
      cases e <;> cases e' <;> first | rfl | exact absurd (hd.symm.trans h.1) (by decide)
    | more =>
      rw [hr] at h
      have hrun := h.1
      rw [hd] at hrun
      cases e <;> cases hrun
  · rintro ⟨after, he⟩
    rw [he] at h
    cases e <;> exact h.1

end Request

theorem requestPieces_tells (p : RequestParser) (hp : p.request.addr.length = 256) {b : Buffer}
    (hb : WF b) (he : b.unread = []) (pieces : List Bytes)
    (hfit : ∀ bs ∈ pieces, bs.length ≤ b.limit) :
    (requestPieces pieces b p).2.1.1.Tells (requestPieces pieces b p).2.1.2
      ((requestPieces pieces b p).1.unread ++ (requestPieces pieces b p).2.2.flatten)
      (decodeRequest pieces.flatten) := by
  obtain ⟨h1, h2⟩ := feedPieces_spec requestStep requestStop pieces hb he hfit
    (p := (requestParserInit p, false)) rfl
  have h := requestFeed_tells p hp pieces.flatten
  unfold requestFeed at h
  rw [← h1, ← h2] at h
  exact h

/-- The parser of requests accepts the messages of the grammar and no others,
stores what they say and leaves what follows them, however they come in. -/
theorem request_exact (p : RequestParser) (hp : p.request.addr.length = 256) {b : Buffer}
    (hb : WF b) (he : b.unread = []) (pieces : List Bytes)
    (hfit : ∀ bs ∈ pieces, bs.length ≤ b.limit) :
    let r := requestPieces pieces b p
    let q := r.2.1.1
    let rest := r.1.unread ++ r.2.2.flatten
    let input := pieces.flatten
    q.Tells r.2.1.2 rest (decodeRequest input) ∧
    (q.state = .done ↔ ∃ m rsv after, input = Connect.encode rsv m ++ after) ∧
    (q.state = .error ↔ (∃ v after, v ≠ socksVersion ∧ input = v :: after) ∨
      ∃ rsv after, input = socksVersion :: socksCmdConnect :: rsv :: socksAtypFqdn :: 0 :: after) ∧
    (q.state = .errorUnsupportedCmd ↔
      ∃ cmd after, cmd ≠ socksCmdConnect ∧ input = socksVersion :: cmd :: after) ∧
    (q.state = .errorUnsupportedAtyp ↔ ∃ rsv atyp after,
      atyp ≠ socksAtypIpv4 ∧ atyp ≠ socksAtypIpv6 ∧ atyp ≠ socksAtypFqdn ∧
        input = socksVersion :: socksCmdConnect :: rsv :: atyp :: after) ∧
    (requestIsDone q.state = false → rest = []) ∧
    ∀ m rsv after, input = Connect.encode rsv m ++ after →
      q.state = .done ∧ m.host.Stored q.request ∧ q.request.destPort = m.port ∧ rest = after := by
  have h := requestPieces_tells p hp hb he pieces hfit
  refine ⟨h, h.state_done, ?_, ?_, ?_, ?_, ?_⟩
  · refine (h.state_failed .malformed).trans ⟨?_, ?_⟩
    · rintro ⟨after, hf⟩
      rcases decodeRequest_failed.mp hf with ⟨-, ⟨v, hv, hi⟩ | ⟨rsv, hi⟩⟩ | ⟨hc, -⟩ | ⟨ha, -⟩
      · exact Or.inl ⟨v, after, hv, hi⟩
      · exact Or.inr ⟨rsv, after, hi⟩
      · cases hc
      · cases ha
    · rintro (⟨v, after, hv, hi⟩ | ⟨rsv, after, hi⟩)
      · exact ⟨after, decodeRequest_failed.mpr (Or.inl ⟨rfl, Or.inl ⟨v, hv, hi⟩⟩)⟩
      · exact ⟨after, decodeRequest_failed.mpr (Or.inl ⟨rfl, Or.inr ⟨rsv, hi⟩⟩)⟩
  · refine (h.state_failed .command).trans ⟨?_, ?_⟩
    · rintro ⟨after, hf⟩
      rcases decodeRequest_failed.mp hf with ⟨hm, -⟩ | ⟨-, cmd, hc, hi⟩ | ⟨ha, -⟩
      · cases hm
      · exact ⟨cmd, after, hc, hi⟩
      · cases ha
    · rintro ⟨cmd, after, hc, hi⟩
      exact ⟨after, decodeRequest_failed.mpr (Or.inr (Or.inl ⟨rfl, cmd, hc, hi⟩))⟩
  · refine (h.state_failed .addressType).trans ⟨?_, ?_⟩
    · rintro ⟨after, hf⟩
      rcases decodeRequest_failed.mp hf with ⟨hm, -⟩ | ⟨hc, -⟩ | ⟨-, rsv, atyp, h4, h6, h3, hi⟩
      · cases hm
      · cases hc
      · exact ⟨rsv, atyp, after, h4, h6, h3, hi⟩
    · rintro ⟨rsv, atyp, after, h4, h6, h3, hi⟩
      exact ⟨after, decodeRequest_failed.mpr (Or.inr (Or.inr ⟨rfl, rsv, atyp, h4, h6, h3, hi⟩))⟩
  · intro hrun
    cases hr : decodeRequest pieces.flatten with
    | done m after =>
      rw [hr] at h
      rw [h.1] at hrun
      cases hrun
    | failed e after =>
      rw [hr] at h
      cases e <;> (rw [h.1] at hrun; cases hrun)
    | more =>
      rw [hr] at h
      exact h.2.2
  · intro m rsv after hi
    rw [decodeRequest_done.mpr ⟨rsv, hi⟩] at h
    obtain ⟨hd, -, hrest, hstored, hport⟩ := h
    exact ⟨hd, hstored, hport, hrest⟩

theorem request_exact_sample :
    let r := requestPieces [[5, 1, 0, 3, 2], [104, 105, 0], [80, 7]]
      (bufferInit 8 (List.replicate 8 0)) ⟨⟨0, 0, List.replicate 256 0, 0⟩, .done, 9, 9⟩
    r.2.1.1.state = .done ∧
      (Host.fqdn ⟨[104, 105], by decide⟩).Stored r.2.1.1.request ∧ r.2.1.1.request.destPort = 80 ∧
      r.1.unread ++ r.2.2.flatten = [7] :=
  (request_exact ⟨⟨0, 0, List.replicate 256 0, 0⟩, .done, 9, 9⟩ (List.length_replicate)
    (bufferInit_wf List.length_replicate) (bufferInit_unread _ _)
    [[5, 1, 0, 3, 2], [104, 105, 0], [80, 7]] (by decide)).2.2.2.2.2.2
    ⟨.fqdn ⟨[104, 105], by decide⟩, 80⟩ 0 [7] rfl

/-! ## AUTH -/

/-- `auth_parser_init`, then `auth_consume` after every read. -/
def authPieces (pieces : List Bytes) (b : Buffer) (p : AuthParser) :
    Buffer × (AuthParser × Bool) × List Bytes :=
  feedPieces (fun b s => authConsume b s.1 s.2) authStop pieces b (authParserInit p, false)

section Auth
variable {p : AuthParser} {error : Bool} {rest bs : Bytes}

theorem AuthParser.Tells.state_done (h : p.Tells error rest (decodeAuth bs)) :
    p.state = .done ↔ ∃ c after, bs = Credentials.encode c ++ after := by
  constructor
  · intro hd
    cases hr : decodeAuth bs with
    | done c after => exact ⟨c, after, decodeAuth_done.mp hr⟩
    | failed e after =>
      rw [hr] at h
      exact absurd (hd.symm.trans h.1) (by decide)
    | more =>
      rw [hr] at h
      have hrun := h.1
      rw [hd] at hrun
      cases hrun
  · rintro ⟨c, after, he⟩
    rw [decodeAuth_done.mpr he] at h
    exact h.1

theorem AuthParser.Tells.state_error (h : p.Tells error rest (decodeAuth bs)) :
    p.state = .error ↔ ∃ after, decodeAuth bs = failed () after := by
  constructor
  · intro hd
    cases hr : decodeAuth bs with
    | done c after =>
      rw [hr] at h
      exact absurd (hd.symm.trans h.1) (by decide)
    | failed e after => exact ⟨after, rfl⟩
    | more =>
      rw [hr] at h
      have hrun := h.1
      rw [hd] at hrun
      cases hrun
  · rintro ⟨after, he⟩
    rw [he] at h
    exact h.1

end Auth

theorem authPieces_tells (p : AuthParser) (hu : p.uname.length = 256) (hp : p.passwd.length = 256)
    {b : Buffer} (hb : WF b) (he : b.unread = []) (pieces : List Bytes)
    (hfit : ∀ bs ∈ pieces, bs.length ≤ b.limit) :
    (authPieces pieces b p).2.1.1.Tells (authPieces pieces b p).2.1.2
      ((authPieces pieces b p).1.unread ++ (authPieces pieces b p).2.2.flatten)
      (decodeAuth pieces.flatten) := by
  obtain ⟨h1, h2⟩ := feedPieces_spec authStep authStop pieces hb he hfit
    (p := (authParserInit p, false)) rfl
  have h := authFeed_tells p hu hp pieces.flatten
  unfold authFeed at h
  rw [← h1, ← h2] at h
  exact h

/-- The parser of credentials accepts the messages of the grammar and no others,
stores both fields with a zero byte behind them and leaves what follows. -/
theorem auth_exact (p : AuthParser) (hu : p.uname.length = 256) (hp : p.passwd.length = 256)
    {b : Buffer} (hb : WF b) (he : b.unread = []) (pieces : List Bytes)
    (hfit : ∀ bs ∈ pieces, bs.length ≤ b.limit) :
    let r := authPieces pieces b p
    let q := r.2.1.1
    let error := r.2.1.2
    let rest := r.1.unread ++ r.2.2.flatten
    let input := pieces.flatten
    q.Tells error rest (decodeAuth input) ∧
    (q.state = .done ↔ ∃ c after, input = Credentials.encode c ++ after) ∧
    (q.state = .error ↔ (∃ v after, v ≠ authVersion ∧ input = v :: after) ∨
      (∃ after, input = authVersion :: 0 :: after) ∨
      ∃ (uname : Field) (after : Bytes), input = authVersion :: uname.encode ++ 0 :: after) ∧
    (error = true ↔ q.state = .error) ∧
    (authIsDone q.state = false → rest = []) ∧
    ∀ c after, input = Credentials.encode c ++ after →
      q.state = .done ∧ Terminated q.uname c.uname.val ∧ Terminated q.passwd c.passwd.val ∧
        rest = after := by
  have h := authPieces_tells p hu hp hb he pieces hfit
  refine ⟨h, h.state_done, ?_, ?_, ?_, ?_⟩
  · refine h.state_error.trans ⟨?_, ?_⟩
    · rintro ⟨after, hf⟩
      rcases decodeAuth_failed.mp hf with ⟨v, hv, hi⟩ | hi | ⟨uname, hi⟩
      · exact Or.inl ⟨v, after, hv, hi⟩
      · exact Or.inr (Or.inl ⟨after, hi⟩)
      · exact Or.inr (Or.inr ⟨uname, after, hi⟩)
    · rintro (⟨v, after, hv, hi⟩ | ⟨after, hi⟩ | ⟨uname, after, hi⟩)
      · exact ⟨after, decodeAuth_failed.mpr (Or.inl ⟨v, hv, hi⟩)⟩
      · exact ⟨after, decodeAuth_failed.mpr (Or.inr (Or.inl hi))⟩
      · exact ⟨after, decodeAuth_failed.mpr (Or.inr (Or.inr ⟨uname, hi⟩))⟩
  · cases hr : decodeAuth pieces.flatten with
    | done c after =>
      rw [hr] at h
      rw [h.1, h.2.1]
      decide
    | failed e after =>
      rw [hr] at h
      rw [h.1, h.2.1]
      decide
    | more =>
      rw [hr] at h
      obtain ⟨hrun, herr, -⟩ := h
      refine ⟨fun ht => ?_, fun hst => ?_⟩
      · rw [herr] at ht
        cases ht
      · rw [hst] at hrun
        cases hrun
  · intro hrun
    cases hr : decodeAuth pieces.flatten with
    | done c after =>
      rw [hr] at h
      rw [h.1] at hrun
      cases hrun
    | failed e after =>
      rw [hr] at h
      rw [h.1] at hrun
      cases hrun
    | more =>
      rw [hr] at h
      exact h.2.2
  · intro c after hi
    rw [decodeAuth_done.mpr hi] at h
    obtain ⟨hd, -, hrest, huname, hpasswd⟩ := h
    exact ⟨hd, huname, hpasswd, hrest⟩

theorem auth_exact_sample :
    let r := authPieces [[1, 2, 104], [105, 1], [112, 7]]
      (bufferInit 8 (List.replicate 8 0))
      ⟨.done, 9, 9, 9, List.replicate 256 0, List.replicate 256 0⟩
    r.2.1.1.state = .done ∧ Terminated r.2.1.1.uname [104, 105] ∧
      Terminated r.2.1.1.passwd [112] ∧ r.1.unread ++ r.2.2.flatten = [7] :=
  (auth_exact ⟨.done, 9, 9, 9, List.replicate 256 0, List.replicate 256 0⟩ List.length_replicate
    List.length_replicate (bufferInit_wf List.length_replicate) (bufferInit_unread _ _)
    [[1, 2, 104], [105, 1], [112, 7]] (by decide)).2.2.2.2.2
    ⟨⟨[104, 105], by decide⟩, ⟨[112], by decide⟩⟩ [7] rfl

/-! ## HELLO -/

/-- The choice `design.md` describes, made from the list of methods as a whole. -/
def methodChoice (users : Option Users) (methods : Bytes) : UInt8 :=
  if (∃ u ∈ users, 0 < u.usersCount) ∧ helloUsernamePassword ∈ methods then helloUsernamePassword
  else if ¬(∃ u ∈ users, 0 < u.usersCount) ∧ helloNoAuthenticationRequired ∈ methods then
    helloNoAuthenticationRequired
  else helloNoAcceptableMethods

theorem authRequired_iff {users : Option Users} :
    authRequired users = true ↔ ∃ u ∈ users, 0 < u.usersCount := by
  cases users with
  | none => exact iff_of_false Bool.false_ne_true fun ⟨u, hu, _⟩ => by cases hu
  | some u =>
    refine ⟨fun h => ⟨u, rfl, of_decide_eq_true h⟩, ?_⟩
    rintro ⟨_, ⟨⟩, h⟩
    exact decide_eq_true h

/-- The two flags say which methods have been offered. -/
theorem offers_foldl (methods : Bytes) (o : Offers) :
    (methods.foldl onHelloMethod o).noAuthOffered =
      (o.noAuthOffered || decide (helloNoAuthenticationRequired ∈ methods)) ∧
    (methods.foldl onHelloMethod o).userPassOffered =
      (o.userPassOffered || decide (helloUsernamePassword ∈ methods)) := by
  induction methods generalizing o with
  | nil => simp
  | cons x xs ih =>
    obtain ⟨h1, h2⟩ := ih (onHelloMethod o x)
    rw [List.foldl_cons, h1, h2]
    unfold onHelloMethod
    by_cases hno : x = helloNoAuthenticationRequired
    · subst hno
      have hne : ¬helloUsernamePassword = helloNoAuthenticationRequired := by decide
      simp [hne]
    · have hno' : ¬helloNoAuthenticationRequired = x := fun h => hno h.symm
      by_cases hup : x = helloUsernamePassword
      · subst hup
        simp [hno, hno']
      · have hup' : ¬helloUsernamePassword = x := fun h => hup h.symm
        simp [hno, hup, hno', hup']

theorem helloMethod_offers (users : Option Users) (methods : Bytes) :
    helloMethod users (methods.foldl onHelloMethod ⟨false, false⟩) =
      methodChoice users methods := by
  obtain ⟨h1, h2⟩ := offers_foldl methods ⟨false, false⟩
  unfold helloMethod methodChoice
  rw [h1, h2]
  by_cases hu : ∃ u ∈ users, 0 < u.usersCount
  · simp only [authRequired_iff.mpr hu, hu]
    simp
  · simp only [Bool.eq_false_iff.mpr (authRequired_iff.not.mpr hu), hu]
    simp

/-- What `hello_read` makes of every read, from its arrival on. -/
def helloPieces (fd : Fd) : List Bytes → SCtx → SCtx × SocksState × List Bytes
  | [], c => (c, .helloRead, [])
  | bs :: rest, c =>
    let c := c.setReadBuffer ((c.s.readBuffer.store bs).bufferWriteAdv bs.length)
    let r := helloParse fd c
    if r.2 = .helloRead then helloPieces fd rest r.1 else (r.1, r.2, rest)

/-- What HELLO finds: the client is registered, and there is room for the answer. -/
structure Greetable (fd : Fd) (c : SCtx) : Prop where
  valid : invalidFd fd = false
  item : c.sel.fds fd ≠ none
  read : WF c.s.readBuffer
  readLimit : c.s.readBuffer.limit = bufferSize
  write : WF c.s.writeBuffer
  writeLimit : c.s.writeBuffer.limit = bufferSize
  silent : c.s.writeBuffer.unread = []

/-- What HELLO comes to, when its parser has come to `out`. -/
structure Greeted (users : Option Users) (r : SCtx × SocksState × List Bytes)
    (out : (HelloParser Offers × Bool) × Bytes) : Prop where
  rest : r.1.s.readBuffer.unread ++ r.2.2.flatten = out.2
  state : r.2.1 = if out.1.2 then .error else if out.1.1.state = .done then .helloWrite else .helloRead
  reply : r.2.1 = .helloWrite →
    r.1.s.writeBuffer.unread = [socksVersion, helloMethod users out.1.1.data]

section Hello
variable {fd : Fd} {c : SCtx} {h : HelloSt}

theorem Greetable.interest (hg : Greetable fd c) :
    ∃ sel', c.selectorSetInterest fd opWrite = ({ c with sel := sel' }, .success) := by
  obtain ⟨it, hit⟩ := Option.ne_none_iff_exists'.mp hg.item
  unfold Ctx.selectorSetInterest Selector.selectorSetInterest
  rw [hg.valid, hit]
  exact ⟨_, rfl⟩

/-- The answer, once the parser is done. -/
theorem helloProcess_reply (hw : WF c.s.writeBuffer) (he : c.s.writeBuffer.unread = [])
    (hl : c.s.writeBuffer.limit = bufferSize) (hcl : c.s.client = .hello h) :
    (helloProcess c).2 = .helloWrite ∧
      (helloProcess c).1.s.writeBuffer.unread =
        [socksVersion, helloMethod c.g.users h.parser.data] ∧
      (helloProcess c).1.s.readBuffer = c.s.readBuffer := by
  obtain ⟨wb, hm, -, -, hu⟩ := marshall_empty hw he
    (m := [socksVersion, helloMethod c.g.users h.parser.data]) (by simp)
    (by rw [hl]; exact Nat.le_of_ble_eq_true rfl)
  have hh : c.s.client.asHello = h := by rw [hcl]; rfl
  have heq : helloProcess c = (((c.note (.helloProcessed c.g.users c.parsed
      (helloMethod c.g.users h.parser.data))).setClient
        (.hello { h with method := helloMethod c.g.users h.parser.data })).setWriteBuffer wb,
      .helloWrite) := by
    simp only [helloProcess, hh]
    simp only [Ctx.setClient, Ctx.note, Ctx.modify, helloMarshall, hm]
  rw [heq]
  exact ⟨rfl, hu, rfl⟩

/-- One read: the parser goes on, and a message that ends is answered. -/
theorem helloParse_step (hg : Greetable fd c) (hcl : c.s.client = .hello h)
    (hrun : helloStop (h.parser, false) = false) :
    Greeted c.g.users ((helloParse fd c).1, (helloParse fd c).2, [])
        (helloRun h.parser c.s.readBuffer.unread) ∧
      ((helloParse fd c).2 = .helloRead → Greetable fd (helloParse fd c).1 ∧
        (helloParse fd c).1.s.readBuffer.unread = [] ∧ (helloParse fd c).1.g = c.g ∧
        (helloParse fd c).1.s.client =
          .hello { h with parser := (helloRun h.parser c.s.readBuffer.unread).1.1 }) := by
  obtain ⟨hwf, hlim, hrest, hres⟩ := consume_spec
    hg.read (h.parser, false)
  have hh : c.s.client.asHello = h := by rw [hcl]; rfl
  unfold helloParse helloConsume
  simp only [hh]
  generalize consume (helloStep (some onHelloMethod)) helloStop c.s.readBuffer (h.parser, false)
    = out at hwf hlim hrest hres ⊢
  obtain ⟨rb, p, e⟩ := out
  have hout : helloRun h.parser c.s.readBuffer.unread = ((p, e), rb.unread) :=
    Prod.ext hres.symm hrest.symm
  rw [hout]
  have hcon : Greetable fd ((c.setReadBuffer rb).setClient (.hello { h with parser := p })) :=
    ⟨hg.valid, hg.item, hwf, hlim.trans hg.readLimit, hg.write, hg.writeLimit, hg.silent⟩
  rcases helloRun_cases hrun c.s.readBuffer.unread with
    ⟨q, hq, hd, hs⟩ | ⟨q, rest, hq⟩ | ⟨q, rest, hq, hd⟩ <;>
    (have heq := hout.symm.trans hq
     simp only [Prod.mk.injEq] at heq
     obtain ⟨⟨rfl, rfl⟩, hr⟩ := heq)
  · -- the message goes on
    have hnot : ¬p.state = .done := fun he => by rw [he] at hd; cases hd
    simp only [Bool.false_eq_true, if_false, hd]
    exact ⟨⟨by simp [Ctx.setReadBuffer, Ctx.setClient, Ctx.modify], by simp [hnot],
      fun he => by cases he⟩, fun _ => ⟨hcon, hr, rfl, rfl⟩⟩
  · simp only [if_true]
    exact ⟨⟨by simp [Ctx.setReadBuffer, Ctx.setClient, Ctx.modify], rfl, fun he => by cases he⟩,
      fun he => by cases he⟩
  · obtain ⟨sel', hsel⟩ := hcon.interest
    have hdone : helloIsDone p.state = true := by rw [hd]; rfl
    simp only [Bool.false_eq_true, if_false, hdone, if_true, hsel]
    obtain ⟨h1, h2, h3⟩ := helloProcess_reply (h := { h with parser := p })
      (c := { (c.setReadBuffer rb).setClient (.hello { h with parser := p }) with sel := sel' })
      hcon.write hcon.silent hcon.writeLimit rfl
    refine ⟨⟨?_, ?_, fun _ => h2⟩, fun he => by rw [h1] at he; cases he⟩
    · simp only [h3, List.flatten_nil, List.append_nil]
      rfl
    · simp [h1, hd]

/-- Any number of reads come to what one read of all of them comes to. -/
theorem helloPieces_spec : ∀ (pieces : List Bytes) {c : SCtx} {h : HelloSt}, Greetable fd c →
    c.s.readBuffer.unread = [] → c.s.client = .hello h → helloStop (h.parser, false) = false →
    (∀ bs ∈ pieces, bs.length ≤ bufferSize) →
    Greeted c.g.users (helloPieces fd pieces c) (helloRun h.parser pieces.flatten)
  | [], c, h, _, he, _, hrun, _ => by
    have hnot : ¬h.parser.state = .done := fun hd => by simp [helloStop, hd] at hrun
    refine ⟨by simp [helloPieces, he, helloRun], ?_, fun hw => by cases hw⟩
    simp [helloPieces, helloRun, hnot]
  | bs :: rest, c, h, hg, he, hcl, hrun, hfit => by
    obtain ⟨hwf, hun⟩ := WF.piece hg.read he
      (by rw [hg.readLimit]; exact hfit bs List.mem_cons_self)
    have hg1 : Greetable fd
        (c.setReadBuffer ((c.s.readBuffer.store bs).bufferWriteAdv bs.length)) :=
      ⟨hg.valid, hg.item, hwf, hg.readLimit, hg.write, hg.writeLimit, hg.silent⟩
    obtain ⟨hstep, hgo⟩ := helloParse_step hg1 hcl hrun
    have hun' : (c.setReadBuffer ((c.s.readBuffer.store bs).bufferWriteAdv bs.length)).s.readBuffer.unread
        = bs := hun
    rw [hun'] at hstep hgo
    have hflat : (bs :: rest).flatten = bs ++ rest.flatten := rfl
    unfold helloPieces
    simp only
    by_cases hst : (helloParse fd
        (c.setReadBuffer ((c.s.readBuffer.store bs).bufferWriteAdv bs.length))).2 = .helloRead
    · rw [if_pos hst]
      obtain ⟨hg2, hempty, hglob, hcl2⟩ := hgo hst
      have hstate := hstep.state
      simp only [hst] at hstate
      rcases helloRun_cases hrun bs with ⟨q, hq, -, hs⟩ | ⟨q, more, hq⟩ | ⟨q, more, hq, hd⟩
      · rw [hq] at hcl2
        have ih := helloPieces_spec rest hg2 hempty hcl2 hs
          (fun xs hx => hfit xs (List.mem_cons_of_mem _ hx))
        rw [hglob] at ih
        have happ : helloRun h.parser (bs ++ rest.flatten) = helloRun q rest.flatten := by
          have hq' : feed (helloStep (some onHelloMethod)) helloStop (h.parser, false) bs =
              ((q, false), []) := hq
          unfold helloRun
          rw [feed_append_of_running bs _ _ hrun (by rw [hq']; exact hs), hq']
        rw [hflat, happ]
        exact ih
      · rw [hq] at hstate
        cases hstate
      · rw [hq, if_neg Bool.false_ne_true, if_pos hd] at hstate
        cases hstate
    · rw [if_neg hst]
      have hstop : helloStop (helloRun h.parser bs).1 = true := by
        have hstate := hstep.state
        rcases helloRun_cases hrun bs with ⟨q, hq, hd, -⟩ | ⟨q, more, hq⟩ | ⟨q, more, hq, hd⟩
        · rw [hq, if_neg Bool.false_ne_true, if_neg (fun he => by rw [he] at hd; cases hd)] at hstate
          exact absurd hstate hst
        · have hv := helloRun_verdict hrun bs
          rw [hq] at hv ⊢
          have herr : q.state = .error := hv.mp rfl
          simp [helloStop, herr]
        · rw [hq]
          simp [helloStop, hd]
      have happ : helloRun h.parser (bs ++ rest.flatten) =
          ((helloRun h.parser bs).1, (helloRun h.parser bs).2 ++ rest.flatten) :=
        feed_append_of_stopped bs _ _ hrun hstop
      rw [hflat, happ]
      refine ⟨?_, hstep.state, hstep.reply⟩
      have hr := hstep.rest
      simp only [List.flatten_nil, List.append_nil] at hr
      rw [← hr]

end Hello

/-- What HELLO comes to, when the message reads as `m`. -/
def HelloTells (users : Option Users) (r : SCtx × SocksState × List Bytes) :
    Reading Unit Field → Prop
  | .done methods after => r.2.1 = .helloWrite ∧
      r.1.s.writeBuffer.unread = [socksVersion, methodChoice users methods.val] ∧
      r.1.s.readBuffer.unread ++ r.2.2.flatten = after
  | .failed _ after => r.2.1 = .error ∧ r.1.s.readBuffer.unread ++ r.2.2.flatten = after
  | .more => r.2.1 = .helloRead ∧ r.1.s.readBuffer.unread ++ r.2.2.flatten = []

/-- HELLO accepts the messages of its grammar and no others, answers the method
that the store and the list call for, and leaves what follows the list. -/
theorem hello_exact {fd : Fd} {c : SCtx} (hg : Greetable fd c) (he : c.s.readBuffer.unread = [])
    (pieces : List Bytes) (hfit : ∀ bs ∈ pieces, bs.length ≤ bufferSize) :
    let r := helloPieces fd pieces (helloReadInit fd c)
    let input := pieces.flatten
    HelloTells c.g.users r (decodeHello input) ∧
    (r.2.1 = .helloWrite ↔
      ∃ (methods : Field) (after : Bytes), input = [socksVersion] ++ methods.encode ++ after) ∧
    (r.2.1 = .error ↔ (∃ v after, v ≠ socksVersion ∧ input = v :: after) ∨
      ∃ after, input = socksVersion :: 0 :: after) ∧
    ∀ (methods : Field) (after : Bytes), input = [socksVersion] ++ methods.encode ++ after →
      r.1.s.writeBuffer.unread = [socksVersion, methodChoice c.g.users methods.val] ∧
      r.1.s.readBuffer.unread ++ r.2.2.flatten = after := by
  have hg0 : Greetable fd (helloReadInit fd c) :=
    ⟨hg.valid, hg.item, hg.read, hg.readLimit, hg.write, hg.writeLimit, hg.silent⟩
  have hs : Greeted c.g.users (helloPieces fd pieces (helloReadInit fd c))
      (helloRun (helloParserInit ⟨⟨false, false⟩, .version, 0⟩) pieces.flatten) :=
    helloPieces_spec pieces hg0 he (h := ⟨helloParserInit ⟨⟨false, false⟩, .version, 0⟩, _⟩) rfl rfl
      hfit
  have ht := helloFeed_tells onHelloMethod ⟨⟨false, false⟩, .version, 0⟩ pieces.flatten
  have h : HelloTells c.g.users (helloPieces fd pieces (helloReadInit fd c))
      (decodeHello pieces.flatten) := by
    unfold helloRun at hs
    unfold helloFeed at ht
    cases hr : decodeHello pieces.flatten with
    | done methods after =>
      rw [hr] at ht
      obtain ⟨hd, herr, hrest, hdata⟩ := ht
      have hst := hs.state
      rw [herr, if_neg Bool.false_ne_true, if_pos hd] at hst
      refine ⟨hst, ?_, hs.rest.trans hrest⟩
      rw [hs.reply hst, hdata, helloMethod_offers]
    | failed e after =>
      rw [hr] at ht
      obtain ⟨-, herr, hrest⟩ := ht
      have hst := hs.state
      rw [herr, if_pos rfl] at hst
      exact ⟨hst, hs.rest.trans hrest⟩
    | more =>
      rw [hr] at ht
      obtain ⟨hrun, herr, hrest⟩ := ht
      have hst := hs.state
      rw [herr, if_neg Bool.false_ne_true,
        if_neg (fun hd => by rw [hd] at hrun; cases hrun)] at hst
      exact ⟨hst, hs.rest.trans hrest⟩
  refine ⟨h, ⟨?_, ?_⟩, ⟨?_, ?_⟩, ?_⟩
  · intro hw
    cases hr : decodeHello pieces.flatten with
    | done methods after => exact ⟨methods, after, decodeHello_done.mp hr⟩
    | failed e after =>
      rw [hr] at h
      exact absurd (hw.symm.trans h.1) (by decide)
    | more =>
      rw [hr] at h
      exact absurd (hw.symm.trans h.1) (by decide)
  · rintro ⟨methods, after, hi⟩
    rw [decodeHello_done.mpr hi] at h
    exact h.1
  · intro hw
    cases hr : decodeHello pieces.flatten with
    | done methods after =>
      rw [hr] at h
      exact absurd (hw.symm.trans h.1) (by decide)
    | failed e after =>
      rcases decodeHello_failed.mp hr with ⟨v, hv, hi⟩ | hi
      · exact Or.inl ⟨v, after, hv, hi⟩
      · exact Or.inr ⟨after, hi⟩
    | more =>
      rw [hr] at h
      exact absurd (hw.symm.trans h.1) (by decide)
  · rintro (⟨v, after, hv, hi⟩ | ⟨after, hi⟩)
    · rw [decodeHello_failed.mpr (Or.inl ⟨v, hv, hi⟩)] at h
      exact h.1
    · rw [decodeHello_failed.mpr (Or.inr hi)] at h
      exact h.1
  · intro methods after hi
    rw [decodeHello_done.mpr hi] at h
    exact h.2

theorem accepted_greetable : Greetable 2 ((Boot.open.start.run (Input.round 1 0 [])).ctx 0) where
  valid := by decide +kernel
  item := by decide +kernel
  read := ⟨by decide +kernel, by decide +kernel, by decide +kernel, by decide +kernel,
    by decide +kernel⟩
  readLimit := by decide +kernel
  write := ⟨by decide +kernel, by decide +kernel, by decide +kernel, by decide +kernel,
    by decide +kernel⟩
  writeLimit := by decide +kernel
  silent := by decide +kernel

/-- That session, in a server with these users. -/
def Ctx.greeted (users : Option Users) : SCtx :=
  let c := (Boot.open.start.run (Input.round 1 0 [])).ctx 0
  { c with g := { c.g with users := users } }

theorem greeted_greetable (users : Option Users) : Greetable 2 (Ctx.greeted users) :=
  ⟨accepted_greetable.valid, accepted_greetable.item, accepted_greetable.read,
    accepted_greetable.readLimit, accepted_greetable.write, accepted_greetable.writeLimit,
    accepted_greetable.silent⟩

theorem greeted_unread (users : Option Users) : (Ctx.greeted users).s.readBuffer.unread = [] :=
  (by decide +kernel : ((Boot.open.start.run (Input.round 1 0 [])).ctx 0).s.readBuffer.unread = [])

/-- What a server with these users makes of a message that offers both methods. -/
def helloAnswer (users : Option Users) : SCtx × SocksState × List Bytes :=
  helloPieces 2 [[5, 2, 2], [0, 7]] (helloReadInit 2 (Ctx.greeted users))

theorem hello_exact_sample :
    ((helloAnswer none).1.s.writeBuffer.unread = [socksVersion, helloNoAuthenticationRequired] ∧
      (helloAnswer none).1.s.readBuffer.unread ++ (helloAnswer none).2.2.flatten = [7]) ∧
    let peopled := some (usersCreate.usersAdd [97] [120]).1
    (helloAnswer peopled).1.s.writeBuffer.unread = [socksVersion, helloUsernamePassword] ∧
      (helloAnswer peopled).1.s.readBuffer.unread ++ (helloAnswer peopled).2.2.flatten = [7] := by
  have h : ∀ users, (helloAnswer users).1.s.writeBuffer.unread =
        [socksVersion, methodChoice users [2, 0]] ∧
      (helloAnswer users).1.s.readBuffer.unread ++ (helloAnswer users).2.2.flatten = [7] := by
    intro users
    have husers : (Ctx.greeted users).g.users = users := rfl
    have hexact := (hello_exact (greeted_greetable users) (greeted_unread users) [[5, 2, 2], [0, 7]]
      (by decide)).2.2.2 ⟨[2, 0], by decide⟩ [7] rfl
    rw [husers] at hexact
    unfold helloAnswer
    exact hexact
  have hnone : methodChoice none [2, 0] = helloNoAuthenticationRequired := by decide
  have hsome : methodChoice (some (usersCreate.usersAdd [97] [120]).1) [2, 0] =
      helloUsernamePassword := by decide +kernel
  refine ⟨?_, ?_⟩
  · rw [← hnone]
    exact h none
  · dsimp only
    rw [← hsome]
    exact h _

end Socks5d
