import Socks5d.Stores
import Socks5d.Lib.Tables

/-! # The text of the access log

`access_log.c`: what each of the three events appends to the file. -/
namespace Socks5d
open Lib.Tables

/-- Year, month and day of a day counted from 1970-01-01, as `gmtime` has them. -/
def gmtimeDate (days : Int) : Int × Int × Int :=
  -- the years are counted from March, so that a leap day is the last one
  let z := days + 719468
  let era := z / 146097
  let doe := z % 146097
  let yoe := (doe - doe / 1460 + doe / 36524 - doe / 146096) / 365
  let doy := doe - (365 * yoe + yoe / 4 - yoe / 100)
  let mp := (5 * doy + 2) / 153
  let day := doy - (153 * mp + 2) / 5 + 1
  let month := if mp < 10 then mp + 3 else mp - 9
  (yoe + era * 400 + (if month ≤ 2 then 1 else 0), month, day)

def twoDigits (n : Int) : Bytes := (if n < 10 then lit "0" else []) ++ decimalInt n

/-- `%Y-%m-%dT%H:%M:%SZ` -/
def iso8601 (t : Int) : Bytes :=
  let (year, month, day) := gmtimeDate (t / 86400)
  decimalInt year ++ lit "-" ++ twoDigits month ++ lit "-" ++ twoDigits day ++ lit "T" ++
    twoDigits (t % 86400 / 3600) ++ lit ":" ++ twoDigits (t % 3600 / 60) ++ lit ":" ++
    twoDigits (t % 60) ++ lit "Z"

example : iso8601 1782570721 = lit "2026-06-27T14:32:01Z" := by decide +kernel

def timestampLen : Nat := 21

/-- `write_timestamp`; `none` where the text does not fit and `strftime` leaves
the buffer undefined. -/
def writeTimestamp (now : Int) : Option Bytes :=
  if (iso8601 now).length < timestampLen then some (iso8601 now) else none

def accessLogOpen (user : Option Bytes) (dest : Bytes) (port : UInt16) : Bytes :=
  lit "\t" ++ user.getD (lit "-") ++ lit "\t" ++ dest ++ lit ":" ++ decimal port.toNat ++
    lit "\t-\t-\tOPEN\n"

def accessLogClose (user : Option Bytes) (dest : Bytes) (port : UInt16) (bytesC2o bytesO2c : UInt64) :
    Bytes :=
  lit "\t" ++ user.getD (lit "-") ++ lit "\t" ++ dest ++ lit ":" ++ decimal port.toNat ++ lit "\t" ++
    decimal bytesC2o.toNat ++ lit "\t" ++ decimal bytesO2c.toNat ++ lit "\tCLOSE\n"

def accessLogFail (user dest : Option Bytes) (port : UInt16) (reason : Option FailureReason) : Bytes :=
  lit "\t" ++ user.getD (lit "-") ++ lit "\t" ++ dest.getD (lit "-") ++ lit ":" ++
    decimal port.toNat ++ lit "\t-\t-\tFAIL: " ++ (reason.map FailureReason.text).getD (lit "unknown") ++
    lit "\n"

/-- What a record adds to the file. -/
def LogRecord.text : LogRecord → Option Bytes
  | .opened now user dest port => (writeTimestamp now).map (· ++ accessLogOpen user dest port)
  | .closed now user dest port c2o o2c =>
    (writeTimestamp now).map (· ++ accessLogClose user dest port c2o o2c)
  | .failed now user dest port reason =>
    (writeTimestamp now).map (· ++ accessLogFail user (some dest) port reason)

/-! ## The columns -/

namespace LogRecord

def now : LogRecord → Int
  | opened now _ _ _ | closed now _ _ _ _ _ | failed now _ _ _ _ => now

def user : LogRecord → Option Bytes
  | opened _ user _ _ | closed _ user _ _ _ _ | failed _ user _ _ _ => user

def dest : LogRecord → Bytes
  | opened _ _ dest _ | closed _ _ dest _ _ _ | failed _ _ dest _ _ => dest

def port : LogRecord → UInt16
  | opened _ _ _ port | closed _ _ _ port _ _ | failed _ _ _ port _ => port

def bytes : LogRecord → Bytes × Bytes
  | closed _ _ _ _ c2o o2c => (decimal c2o.toNat, decimal o2c.toNat)
  | _ => (lit "-", lit "-")

def event : LogRecord → Bytes
  | opened _ _ _ _ => lit "OPEN"
  | closed _ _ _ _ _ _ => lit "CLOSE"
  | failed _ _ _ _ reason => lit "FAIL: " ++ (reason.map FailureReason.text).getD (lit "unknown")

/-- The six columns of `README.md`. -/
def fields (r : LogRecord) : List Bytes :=
  [iso8601 r.now, r.user.getD (lit "-"), r.dest ++ lit ":" ++ decimal r.port.toNat, r.bytes.1,
    r.bytes.2, r.event]

/-- Every record is written as a line of its fields, if there is room for the time. -/
theorem text_fields (r : LogRecord) :
    r.text = if (iso8601 r.now).length < timestampLen then some (line 9 10 r.fields) else none := by
  have hstamp : ∀ (now : Int) (rest text : Bytes), iso8601 now ++ rest = text →
      (writeTimestamp now).map (· ++ rest) =
        if (iso8601 now).length < timestampLen then some text else none := by
    intro now rest text he
    unfold writeTimestamp
    split
    · exact congrArg some he
    · rfl
  have htab : lit "\t" = [9] := by decide
  cases r with
  | opened now user dest port =>
    have hend : lit "\t-\t-\tOPEN\n" = [9] ++ lit "-" ++ [9] ++ lit "-" ++ [9] ++ lit "OPEN" ++ [10] := by
      decide
    refine hstamp now (accessLogOpen user dest port) _ ?_
    rw [accessLogOpen, htab, hend]
    simp [line, fields, List.intercalate, LogRecord.now, LogRecord.user, LogRecord.dest,
      LogRecord.port, bytes, event]
  | closed now user dest port c2o o2c =>
    have hend : lit "\tCLOSE\n" = [9] ++ lit "CLOSE" ++ [10] := by decide
    refine hstamp now (accessLogClose user dest port c2o o2c) _ ?_
    rw [accessLogClose, htab, hend]
    simp [line, fields, List.intercalate, LogRecord.now, LogRecord.user, LogRecord.dest,
      LogRecord.port, bytes, event]
  | failed now user dest port reason =>
    have hmid : lit "\t-\t-\tFAIL: " = [9] ++ lit "-" ++ [9] ++ lit "-" ++ [9] ++ lit "FAIL: " := by
      decide
    have hend : lit "\n" = [10] := by decide
    refine hstamp now (accessLogFail user (some dest) port reason) _ ?_
    rw [accessLogFail, htab, hmid, hend]
    simp [line, fields, List.intercalate, LogRecord.now, LogRecord.user, LogRecord.dest,
      LogRecord.port, bytes, event]

theorem text_line {r : LogRecord} {text : Bytes} (h : r.text = some text) :
    text = line 9 10 r.fields := by
  rw [text_fields] at h
  split at h
  · exact (Option.some.inj h).symm
  · cases h

end LogRecord
end Socks5d
