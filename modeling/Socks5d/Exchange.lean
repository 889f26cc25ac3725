import Socks5d.Client
import Socks5d.Framing

/-! # The exchange of the command-line client

The rest of `client/main.c`: the loops over `send` and `recv`, and what `main`
does once its options are read and its connection is open. The answers of the
calls of `send` and the bytes that arrive are parameters. -/
namespace Socks5d
open Lib.CString Lib.Lines

/-- `RESPONSE_SIZE` -/
def responseSize : Nat := 4096

/-- How `send_all` ends: the client neither ignores nor handles `SIGPIPE`. -/
inductive SendEnd | finished | failed | killed
  deriving DecidableEq, Repr

/-- `send_all`: what is sent, how it ends, and the answers that are left. A
client that gets no answer any more stays where it is. -/
def sendAll (s : Bytes) : List (Except Errno Nat) → Bytes × SendEnd × List (Except Errno Nat)
  | [] => ([], if s = [] then .finished else .killed, [])
  | answer :: answers =>
    if s = [] then ([], .finished, answer :: answers)
    else
      match answer with
      | .error e => ([], if e = .EPIPE then .killed else .failed, answers)
      | .ok 0 => ([], .failed, answers)
      | .ok n =>
        let r := sendAll (s.drop n) answers
        (s.take n ++ r.1, r.2)

/-- `read_line` into a buffer of `len` bytes that holds `buf`, and the input that
is left; `none` is a `recv` that failed or found the end. -/
def readLine (len : Nat) : Bytes → Bytes → Option Bytes × Bytes
  | buf, [] => (if buf.length + 1 < len then none else some buf, [])
  | buf, c :: input =>
    if buf.length + 1 < len then
      if c = 13 then readLine len buf input
      else if c = 10 then (some buf, input)
      else readLine len (buf ++ [c]) input
    else (some buf, c :: input)

/-- What a run of the client comes to; no status is that of a process that was killed. -/
structure ClientRun where
  sent : Bytes
  stdout : Bytes
  stderr : Bytes
  status : Option Nat
  deriving DecidableEq, Repr

namespace ClientRun

/-- `fprintf(stderr, ..); return 1;` -/
def refuse (sent text : Bytes) : ClientRun := ⟨sent, [], text, some 1⟩

def killed (sent : Bytes) : ClientRun := ⟨sent, [], [], none⟩

end ClientRun

/-- `usage` -/
def usageText (prog : Bytes) : Bytes :=
  lit "Usage: " ++ prog ++ lit " [-L addr] [-P port] [-a secret] <command>\n\nCommands:\n" ++
    lit "  stats\n  users\n  user set <name> <pass>\n  user delete <name>\n" ++
    lit "  config get\n  config set <key> <value>\n"

/-- `strncmp(response, "+OK", 3) == 0` -/
def saysOk (response : Str) : Bool := strncmpEq 3 response (lit "+OK")

/-- The end of `main`: the command, after `sent`. -/
def commandExchange (command sent : Bytes) (answers : List (Except Errno Nat)) (input : Bytes) :
    ClientRun :=
  match sendAll command answers with
  | (out, .killed, _) => .killed (sent ++ out)
  | (out, .failed, _) => .refuse (sent ++ out) (lit "command exchange failed\n")
  | (out, .finished, _) =>
    match readLine responseSize [] input with
    | (none, _) => .refuse (sent ++ out) (lit "command exchange failed\n")
    | (some response, _) =>
      ⟨sent ++ out, cstr response ++ [10], [], some (if saysOk response then 0 else 1)⟩

/-- `AUTH %s\n` -/
def authText (secret : Str) : Bytes := lit "AUTH " ++ cstr secret ++ [10]

/-- `main`, with the argument of `-a` and the arguments after the options. -/
def clientMain (prog : Bytes) (secret : Option Str) (argv : List Str)
    (answers : List (Except Errno Nat)) (input : Bytes) : ClientRun :=
  match buildCommand argv commandSize with
  | none => .refuse [] (usageText prog)
  | some command =>
    match secret with
    | none => commandExchange command [] answers input
    | some secret =>
      let auth := authText secret
      if auth.length ≥ commandSize then .refuse [] (lit "authentication exchange failed\n")
      else
        match sendAll auth answers with
        | (out, .killed, _) => .killed out
        | (out, .failed, _) => .refuse out (lit "authentication exchange failed\n")
        | (out, .finished, answers) =>
          match readLine responseSize [] input with
          | (none, _) => .refuse out (lit "authentication exchange failed\n")
          | (some response, input) =>
            if saysOk response then commandExchange command out answers input
            else .refuse out (cstr response ++ [10])

/-! ## Sending -/

theorem sendAll_finished {s out : Bytes} {answers rest : List (Except Errno Nat)}
    (h : sendAll s answers = (out, .finished, rest)) : out = s := by
  induction answers generalizing s out with
  | nil =>
    unfold sendAll at h
    obtain ⟨h1, h2⟩ := Prod.mk.inj h
    by_cases hs : s = []
    · rw [← h1, hs]
    · rw [if_neg hs] at h2
      cases h2
  | cons answer answers ih =>
    unfold sendAll at h
    split at h
    · next hs =>
      rw [← (Prod.mk.inj h).1, hs]
    · split at h
      · next e =>
        split at h <;> cases h
      · cases h
      · next n hn =>
        obtain ⟨h1, h2⟩ := Prod.mk.inj h
        have hrest : (sendAll (s.drop n) answers).fst = s.drop n := ih (Prod.ext rfl h2)
        rw [← h1, hrest, List.take_append_drop]

/-! ## Reading -/

/-- A line as `read_line` leaves it in the buffer. -/
def dropCr (text : Bytes) : Bytes := text.filter fun c => !isCr c

theorem dropCr_length_le (text : Bytes) : (dropCr text).length ≤ text.length :=
  List.length_filter_le _ _

/-- A line that has not ended is none. -/
theorem readLine_open {len : Nat} {buf text : Bytes} (hlf : (10 : UInt8) ∉ text)
    (hlen : buf.length + text.length + 1 < len) : readLine len buf text = (none, []) := by
  induction text generalizing buf with
  | nil =>
    have hroom : buf.length + 1 < len := hlen
    rw [readLine, if_pos hroom]
  | cons c text ih =>
    have hc : c ≠ 10 := fun he => hlf (he ▸ List.mem_cons_self)
    have htext : (10 : UInt8) ∉ text := fun hm => hlf (List.mem_cons_of_mem c hm)
    rw [List.length_cons] at hlen
    rw [readLine, if_pos (by omega), if_neg hc]
    split
    · exact ih htext (by omega)
    · exact ih htext (by rw [List.length_append, List.length_singleton]; omega)

/-- A line that fits is read to its end, without its carriage returns. -/
theorem readLine_line {len : Nat} {buf text rest : Bytes} (hlf : (10 : UInt8) ∉ text)
    (hlen : buf.length + text.length + 1 < len) :
    readLine len buf (text ++ 10 :: rest) = (some (buf ++ dropCr text), rest) := by
  induction text generalizing buf with
  | nil =>
    rw [List.nil_append, readLine, if_pos (by simpa using hlen), if_neg (by decide), if_pos rfl]
    show (some buf, rest) = (some (buf ++ []), rest)
    rw [List.append_nil]
  | cons c text ih =>
    have hc : c ≠ 10 := fun he => hlf (he ▸ List.mem_cons_self)
    have htext : (10 : UInt8) ∉ text := fun hm => hlf (List.mem_cons_of_mem c hm)
    rw [List.length_cons] at hlen
    rw [List.cons_append, readLine, if_pos (by omega), if_neg hc]
    by_cases hcr : c = 13
    · rw [if_pos hcr, ih htext (by omega)]
      have hdrop : dropCr (c :: text) = dropCr text := by rw [hcr]; rfl
      rw [hdrop]
    · rw [if_neg hcr, ih htext (by rw [List.length_append, List.length_singleton]; omega)]
      have hkeep : dropCr (c :: text) = c :: dropCr text := by
        refine List.filter_cons_of_pos ?_
        rw [Bool.not_eq_true']
        exact beq_false_of_ne hcr
      rw [hkeep, List.append_assoc, List.singleton_append]

/-- What `read_line` finds at the front of a stream that begins with one line:
the line, if all of it has arrived. -/
theorem readLine_arrived {r more input : Bytes} (hr : OneLine r) (hlen : r.length < responseSize)
    (hin : input <+: r ++ more) {t : Bytes} {rest : Bytes}
    (h : readLine responseSize [] input = (some t, rest)) :
    t = dropCr r.dropLast ∧ input = r ++ rest ∧ rest <+: more := by
  obtain ⟨hlast, hlf⟩ := hr
  have hsplit : r.dropLast ++ [10] = r := List.dropLast_append_getLast? 10 hlast
  have hroom : ([] : Bytes).length + r.dropLast.length + 1 < responseSize := by
    have hl := congrArg List.length hsplit
    rw [List.length_append, List.length_singleton] at hl
    rw [List.length_nil]
    omega
  have hopen : ∀ {p : Bytes}, p <+: r.dropLast → readLine responseSize [] p ≠ (some t, rest) := by
    intro p hp he
    have hshort := hp.length_le
    rw [readLine_open (fun hm => hlf (hp.subset hm)) (by omega)] at he
    cases he
  have hline : r <+: input := by
    rcases List.prefix_or_prefix_of_prefix hin (List.prefix_append r more) with hp | hp
    · rw [← hsplit, List.prefix_concat_iff, hsplit] at hp
      rcases hp with rfl | hp
      · exact List.prefix_refl _
      · exact absurd h (hopen hp)
    · exact hp
  obtain ⟨tail, rfl⟩ := hline
  have hread : readLine responseSize [] (r ++ tail) = (some (dropCr r.dropLast), tail) := by
    have hwhole : readLine responseSize [] (r.dropLast ++ 10 :: tail) =
        (some ([] ++ dropCr r.dropLast), tail) := readLine_line hlf hroom
    rwa [List.append_cons, hsplit, List.nil_append] at hwhole
  rw [h] at hread
  obtain ⟨ht, hrest⟩ := Prod.mk.inj hread
  refine ⟨Option.some.inj ht, by rw [hrest], ?_⟩
  rw [hrest]
  exact (List.prefix_append_right_inj r).mp hin

/-! ## What the client shows -/

/-- The client shows the line it read from `input`, and its status says whether that
begins with `+OK`. -/
structure Shown (input : Bytes) (r : ClientRun) : Prop where
  read : ∃ t rest, readLine responseSize [] input = (some t, rest) ∧ r.stdout = cstr t ++ [10] ∧
    r.status = some (if saysOk t then 0 else 1)

theorem commandExchange_shown {command sent input : Bytes} {answers : List (Except Errno Nat)}
    (h : (commandExchange command sent answers input).stdout ≠ []) :
    (commandExchange command sent answers input).sent = sent ++ command ∧
      Shown input (commandExchange command sent answers input) := by
  unfold commandExchange at h ⊢
  split at h
  · exact absurd rfl h
  · exact absurd rfl h
  · next out rest hs =>
    split at h
    · exact absurd rfl h
    · next t rest' hr =>
      refine ⟨?_, ⟨t, rest', hr, rfl, rfl⟩⟩
      rw [sendAll_finished hs]

/-- The two conversations a client has that shows something. -/
inductive Told (argv : List Str) (input : Bytes) (r : ClientRun) : Option Str → Prop
  | plain (q : Request) (hq : requested argv = some q) (hargs : q.arguments = (argv.drop 2).map cstr)
      (hlen : (q.line ++ [10]).length < commandSize) (hsent : r.sent = q.line ++ [10])
      (hr : Shown input r) : Told argv input r none
  | authenticated (secret : Str) (q : Request) (hq : requested argv = some q)
      (hargs : q.arguments = (argv.drop 2).map cstr)
      (hlen : (q.line ++ [10]).length < commandSize) (hauth : (authText secret).length < commandSize)
      (hsent : r.sent = authText secret ++ (q.line ++ [10])) (t rest : Bytes)
      (ht : readLine responseSize [] input = (some t, rest))
      (hr : Shown rest r) : Told argv input r (some secret)

theorem clientMain_told {prog : Bytes} {secret : Option Str} {argv : List Str}
    {answers : List (Except Errno Nat)} {input : Bytes}
    (h : (clientMain prog secret argv answers input).stdout ≠ []) :
    Told argv input (clientMain prog secret argv answers input) secret := by
  unfold clientMain at h ⊢
  cases hb : buildCommand argv commandSize with
  | none => rw [hb] at h; exact absurd rfl h
  | some command =>
    rw [hb] at h
    obtain ⟨q, hq, rfl, hlen, hargs⟩ := buildCommand_line hb
    cases secret with
    | none =>
      obtain ⟨hsent, hr⟩ := commandExchange_shown h
      exact .plain q hq hargs hlen hsent hr
    | some secret =>
      dsimp only at h ⊢
      split at h
      · exact absurd rfl h
      · next hroom =>
        rw [if_neg hroom]
        split at h
        · exact absurd rfl h
        · exact absurd rfl h
        · next out answers' hs =>
          split at h
          · exact absurd rfl h
          · next t rest ht =>
            split at h
            · next hok =>
              rw [if_pos hok]
              obtain ⟨hsent, hr⟩ := commandExchange_shown h
              exact .authenticated secret q hq hargs hlen (Nat.lt_of_not_le hroom)
                (by rw [hsent, sendAll_finished hs]) t rest ht hr
            · exact absurd rfl h

end Socks5d
