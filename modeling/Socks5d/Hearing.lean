import Socks5d.Speech

/-! # What a store makes of a stream

A negotiation as a function of the bytes a client sends, with no word of how they
come: the verdicts on its HELLO and its AUTH, who the client is from then on, and
the stream behind them when they let it through. -/
namespace Socks5d
open Ctx View Lib.CString Lib.Incremental Lib.Readers Lib.Readers.Reading

structure Hearing where
  rulings : List Obs
  user : Bytes
  /-- The stream behind the rulings, if they admit the client. -/
  behind : Option Bytes

/-- What the client asks for behind them. -/
def Hearing.request (h : Hearing) : Option (Reading RequestFault Connect) :=
  h.behind.map decodeRequest

/-- The AUTH of a client that sent `hello`, at the front of `bs`. -/
def hearAuth (us : Option Users) (hello bs : Bytes) : Hearing :=
  let asked := Obs.helloProcessed us hello helloUsernamePassword
  match decodeAuth bs with
  | .done c rest =>
    let got := hello ++ c.encode
    if credentialsAccepted us c.uname.val c.passwd.val then
      ⟨[asked, .authProcessed us got 0x00], cstr c.uname.val, some rest⟩
    else ⟨[asked, .authProcessed us got 0x01], [], none⟩
  | _ => ⟨[asked], [], none⟩

/-- What the store `us` makes of the stream `bs`. -/
def hear (us : Option Users) (bs : Bytes) : Hearing :=
  match decodeHello bs with
  | .done methods rest =>
    let hello := socksVersion :: methods.encode
    let m := methodChoice us methods.val
    if m = helloUsernamePassword then hearAuth us hello rest
    else ⟨[.helloProcessed us hello m], [], if m = helloNoAcceptableMethods then none else some rest⟩
  | _ => ⟨[], [], none⟩

/-- Whether a ruling was made by `us`. -/
def Obs.ruledBy (us : Option Users) : Obs → Prop
  | .helloProcessed us' _ _ | .authProcessed us' _ _ => us' = us
  | _ => True

instance (us : Option Users) (o : Obs) : Decidable (o.ruledBy us) := by
  cases o <;> unfold Obs.ruledBy <;> infer_instance

@[simp] def Obs.rules : Obs → Bool
  | .helloProcessed _ _ _ | .authProcessed _ _ _ => true
  | _ => false

def rulings (h : List Obs) : List Obs := h.filter Obs.rules

@[simp] theorem rulings_append (h l : List Obs) : rulings (h ++ l) = rulings h ++ rulings l :=
  List.filter_append ..

theorem rulings_verdicts (h : List Obs) : rulings (verdicts h) = rulings h := by
  unfold rulings verdicts
  rw [List.filter_filter]
  congr 1
  funext o
  cases o <;> rfl

/-- The part of the stream the last ruling of a history is about. -/
@[simp] def Obs.covers : Obs → Option Bytes
  | .helloProcessed _ bs _ | .authProcessed _ bs _ => some bs
  | _ => none

def covered (h : List Obs) : Bytes := (h.filterMap Obs.covers).getLastD []

theorem covered_rulings (h : List Obs) : covered (rulings h) = covered h := by
  unfold covered rulings
  rw [List.filterMap_filter]
  congr 2
  funext o
  cases o <;> rfl

theorem covered_silent {h l : List Obs} (hl : rulings l = []) : covered (h ++ l) = covered h := by
  rw [← covered_rulings, rulings_append, hl, List.append_nil, covered_rulings]

theorem covered_ruled {h l : List Obs} {o : Obs} {bs : Bytes} (ho : o.covers = some bs)
    (hl : rulings l = []) : covered (h ++ o :: l) = bs := by
  rw [List.append_cons, covered_silent hl]
  unfold covered
  rw [List.filterMap_append, List.filterMap_cons_some ho, List.filterMap_nil]
  simp

section Courses
variable {us : Option Users} {ns : List Obs} {got user rest bs : Bytes} {m status : UInt8}

theorem hear_chosen (hc : Chosen us got m) (hne : m ≠ helloUsernamePassword) (rest : Bytes) :
    hear us (got ++ rest) = ⟨[.helloProcessed us got m], [],
      if m = helloNoAcceptableMethods then none else some rest⟩ := by
  obtain ⟨methods, rfl, rfl⟩ := hc
  have hd : decodeHello (socksVersion :: methods.encode ++ rest) = done methods rest :=
    decodeHello_done.mpr rfl
  unfold hear
  rw [hd]
  exact if_neg hne

theorem hear_asked (hc : Chosen us got helloUsernamePassword) (rest : Bytes) :
    hear us (got ++ rest) = hearAuth us got rest := by
  obtain ⟨methods, rfl, hm⟩ := hc
  have hd : decodeHello (socksVersion :: methods.encode ++ rest) = done methods rest :=
    decodeHello_done.mpr rfl
  unfold hear
  rw [hd]
  exact if_pos hm.symm

/-- Whatever the AUTH is, the first ruling stands. -/
theorem hearAuth_first (us : Option Users) (hello bs : Bytes) :
    [Obs.helloProcessed us hello helloUsernamePassword] <+: (hearAuth us hello bs).rulings := by
  unfold hearAuth
  cases decodeAuth bs with
  | done c rest =>
    cases hacc : credentialsAccepted us c.uname.val c.passwd.val <;> simp [hacc]
  | failed | more => exact List.prefix_rfl

theorem hear_judged {hello auth : Bytes} (hc : Chosen us hello helloUsernamePassword)
    (hj : Judged us auth status user) (rest : Bytes) :
    hear us (hello ++ auth ++ rest) = ⟨[.helloProcessed us hello helloUsernamePassword,
      .authProcessed us (hello ++ auth) status], user, if status = 0x00 then some rest else none⟩ := by
  obtain ⟨c, rfl, hj⟩ := hj
  have hd : decodeAuth (c.encode ++ rest) = done c rest := decodeAuth_done.mpr rfl
  rw [List.append_assoc, hear_asked hc]
  unfold hearAuth
  rw [hd]
  cases hacc : credentialsAccepted us c.uname.val c.passwd.val with
  | true =>
    rw [if_pos hacc] at hj
    obtain ⟨rfl, rfl⟩ := hj
    simp [hacc]
  | false =>
    rw [if_neg (by rw [hacc]; decide)] at hj
    obtain ⟨rfl, rfl⟩ := hj
    simp [hacc]

/-- A client that is let through is what the store makes of its stream. -/
theorem Cleared.hear (h : Cleared ns got user) (hr : ∀ o ∈ ns, o.ruledBy us) (rest : Bytes) :
    hear us (got ++ rest) = ⟨ns, user, some rest⟩ := by
  cases h with
  | anyone hc =>
    obtain rfl := hr _ (List.mem_singleton_self _)
    exact hear_chosen hc (by decide) rest
  | known hc hj =>
    obtain rfl := hr _ List.mem_cons_self
    obtain rfl := hr _ (List.mem_cons_of_mem _ (List.mem_singleton_self _))
    exact hear_judged hc hj rest

/-- Only an AUTH says who the client is. -/
theorem hear_user (us : Option Users) (bs : Bytes) :
    (hear us bs).user = [] ∨ ∃ a b, (hear us bs).rulings = [a, b] := by
  unfold hear
  cases decodeHello bs with
  | failed | more => exact Or.inl rfl
  | done methods rest =>
    dsimp only
    split
    · unfold hearAuth
      cases decodeAuth rest with
      | failed | more => exact Or.inl rfl
      | done c after =>
        dsimp only
        split
        · exact Or.inr ⟨_, _, rfl⟩
        · exact Or.inl rfl
    · exact Or.inl rfl

theorem Cleared.rulings (h : Cleared ns got user) : rulings ns = ns := by
  cases h <;> rfl

theorem Cleared.covered (h : Cleared ns got user) : covered ns = got := by
  cases h <;> rfl

theorem Course.covered (h : Course ns got user) : covered ns = got := by
  cases h with
  | replied r hc =>
    rw [covered_silent rfl]
    exact hc.covered
  | _ => rfl

/-- However far a session has come, its rulings are among those on its stream,
and when they are all of them its user is the one they leave. -/
theorem Course.hear (h : Course ns got user) (hr : ∀ o ∈ ns, o.ruledBy us) (rest : Bytes) :
    Socks5d.rulings ns <+: (Socks5d.hear us (got ++ rest)).rulings ∧
      (Socks5d.rulings ns = (Socks5d.hear us (got ++ rest)).rulings →
        user = (Socks5d.hear us (got ++ rest)).user) := by
  have hnobody : user = [] → (Socks5d.rulings ns).length ≤ 1 →
      Socks5d.rulings ns = (Socks5d.hear us (got ++ rest)).rulings →
        user = (Socks5d.hear us (got ++ rest)).user := by
    intro hu hl he
    rcases hear_user us (got ++ rest) with hnil | ⟨a, b, hab⟩
    · rw [hu, hnil]
    · rw [he, hab] at hl
      exact absurd hl (by simp)
  cases h with
  | silent => exact ⟨List.nil_prefix, hnobody rfl (Nat.zero_le 1)⟩
  | @chosen us' hello m hc =>
    obtain rfl := hr _ (List.mem_singleton_self _)
    refine ⟨?_, hnobody rfl (Nat.le_refl 1)⟩
    by_cases hm : m = helloUsernamePassword
    · subst hm
      rw [hear_asked hc]
      exact hearAuth_first us' got rest
    · rw [hear_chosen hc hm]
      exact List.prefix_rfl
  | judged hc hj =>
    obtain rfl := hr _ List.mem_cons_self
    obtain rfl := hr _ (List.mem_cons_of_mem _ (List.mem_singleton_self _))
    rw [hear_judged hc hj]
    exact ⟨List.prefix_rfl, fun _ => rfl⟩
  | @replied ns _ _ r hc =>
    have hnone : Socks5d.rulings [Obs.replied r] = [] := rfl
    rw [hc.hear (fun o ho => hr o (List.mem_append_left _ ho)), rulings_append, hc.rulings, hnone,
      List.append_nil]
    exact ⟨List.prefix_rfl, fun _ => rfl⟩

/-! ## Where the client is left waiting -/

theorem hear_hello {p : HelloParser Offers} (hrun : helloRun helloStart.parser bs = ((p, false), []))
    (hp : helloStop (p, false) = false) : hear us bs = ⟨[], [], none⟩ := by
  have ht := helloFeed_tells onHelloMethod ⟨⟨false, false⟩, .version, 0⟩ bs
  have h : helloFeed onHelloMethod (helloParserInit ⟨⟨false, false⟩, .version, 0⟩, false) bs =
    ((p, false), []) := hrun
  rw [h] at ht
  unfold hear
  cases hr : decodeHello bs with
  | done methods rest =>
    rw [hr] at ht
    unfold helloStop at hp
    rw [ht.1] at hp
    cases hp
  | failed | more => rfl

theorem hearAuth_more {stale hello : Bytes} {p : AuthParser}
    (hrun : authRun (authStart stale).parser bs = ((p, false), []))
    (hp : authStop (p, false) = false) :
    hearAuth us hello bs = ⟨[.helloProcessed us hello helloUsernamePassword], [], none⟩ := by
  have ht := authFeed_tells ⟨.ver, 0, 0, 0, staleArray 256 stale, staleArray 256 stale⟩
    (staleArray_length ..) (staleArray_length ..) bs
  have h : authFeed (authParserInit ⟨.ver, 0, 0, 0, staleArray 256 stale, staleArray 256 stale⟩, false)
    bs = ((p, false), []) := hrun
  rw [h] at ht
  unfold hearAuth
  cases hr : decodeAuth bs with
  | done c rest =>
    rw [hr] at ht
    unfold authStop at hp
    rw [ht.1] at hp
    cases hp
  | failed | more => rfl

/-- The reply a faulty request is given; a malformed one is given none. -/
def RequestFault.reply : RequestFault → Option UInt8
  | .malformed => none
  | .command => some replyCmdNotSupported
  | .addressType => some replyAtypNotSupported

/-- What the request parser has come to is what its bytes read as. -/
theorem requestRun_tells {stale : Bytes} {p : RequestParser} {e : Bool}
    (h : requestRun (requestStart stale).parser bs = ((p, e), rest)) :
    p.Tells e rest (decodeRequest bs) := by
  have ht := requestFeed_tells ⟨⟨0, 0, staleArray destinationMaxLen stale, 0⟩, .version, 0, 0⟩
    (staleArray_length ..) bs
  have h : requestFeed (requestParserInit
    ⟨⟨0, 0, staleArray destinationMaxLen stale, 0⟩, .version, 0, 0⟩, false) bs = ((p, e), rest) := h
  rwa [h] at ht

theorem decodeRequest_more {stale : Bytes} {p : RequestParser}
    (h : requestRun (requestStart stale).parser bs = ((p, false), []))
    (hp : requestIsDone p.state = false) : decodeRequest bs = more := by
  have ht := requestRun_tells h
  cases hr : decodeRequest bs with
  | more => rfl
  | done m after =>
    rw [hr] at ht
    rw [ht.1] at hp
    cases hp
  | failed e after =>
    rw [hr] at ht
    cases e <;> rw [ht.1] at hp <;> cases hp

theorem decodeRequest_refused {stale : Bytes} {p : RequestParser} {reply : UInt8}
    (h : requestRun (requestStart stale).parser bs = ((p, false), rest))
    (hp : p.state = .errorUnsupportedCmd ∧ reply = replyCmdNotSupported ∨
      p.state = .errorUnsupportedAtyp ∧ reply = replyAtypNotSupported) :
    ∃ e, decodeRequest bs = failed e rest ∧ e.reply = some reply := by
  have ht := requestRun_tells h
  cases hr : decodeRequest bs with
  | more =>
    rw [hr] at ht
    have hno := ht.1
    rcases hp with ⟨hp, -⟩ | ⟨hp, -⟩ <;> rw [hp] at hno <;> cases hno
  | done m after =>
    rw [hr] at ht
    have hno := ht.1
    rcases hp with ⟨hp, -⟩ | ⟨hp, -⟩ <;> rw [hp] at hno <;> cases hno
  | failed e after =>
    rw [hr] at ht
    cases e with
    | malformed => cases ht.2.1
    | command =>
      obtain ⟨hst, -, rfl⟩ := ht
      rcases hp with ⟨-, rfl⟩ | ⟨hp, -⟩
      · exact ⟨_, rfl, rfl⟩
      · cases hst.symm.trans hp
    | addressType =>
      obtain ⟨hst, -, rfl⟩ := ht
      rcases hp with ⟨hp, -⟩ | ⟨-, rfl⟩
      · cases hst.symm.trans hp
      · exact ⟨_, rfl, rfl⟩

/-- A request refused or read stays so, whatever comes behind it. -/
theorem decodeRequest_extend {e : RequestFault} (h : decodeRequest bs = failed e rest) (xs : Bytes) :
    decodeRequest (bs ++ xs) = failed e (rest ++ xs) := by
  rw [decodeRequest_failed] at h ⊢
  rcases h with ⟨rfl, ⟨v, hv, rfl⟩ | ⟨rsv, rfl⟩⟩ | ⟨rfl, cmd, hcmd, rfl⟩ |
    ⟨rfl, rsv, atyp, t4, t6, t3, rfl⟩
  · exact Or.inl ⟨rfl, Or.inl ⟨v, hv, rfl⟩⟩
  · exact Or.inl ⟨rfl, Or.inr ⟨rsv, rfl⟩⟩
  · exact Or.inr (Or.inl ⟨rfl, cmd, hcmd, rfl⟩)
  · exact Or.inr (Or.inr ⟨rfl, rsv, atyp, t4, t6, t3, rfl⟩)

end Courses
end Socks5d
