import Nightcrow.Recovery.Provider.Payload

/-! The records a Codex pane applies from its rollout file, poll by poll. -/

namespace Nightcrow.Recovery.Codex

abbrev Bytes := List UInt8

def newline : UInt8 := 10

def maxRecordBytes : ℕ := 64 * 1024

def maxSessionIdBytes : ℕ := 128

def usageLimitErrorInfo : String := "usage_limit_exceeded"

def sessionIdKeys : List String := ["id", "session_id", "conversation_id"]

def resetsAtPath : List String := ["rate_limits", "primary", "resets_at"]

inductive Record where
  | sessionMeta (id : Option String)
  | tokenCount (resetsAt : Option ℤ)
  | usageLimit
  deriving DecidableEq

def validSessionId (id : String) : Bool :=
  id ≠ "" && id.utf8ByteSize ≤ maxSessionIdBytes && plainArgument id

def sessionIdFromPayload (payload : Value) : Option String :=
  (sessionIdKeys.filterMap (fun key => (payload.get key).bind Value.asStr)).find? validSessionId

def classifyLine (parse : Bytes → Option Value) (nowEpoch : ℤ) (line : Bytes) : Option Record :=
  -- `parse` is what the JSON parser makes of the line, if it is UTF-8
  if maxRecordBytes < line.length then none
  else
    (parse line).bind (fun value =>
      ((value.get "type").bind Value.asStr).bind (fun tag =>
        if tag = "session_meta" then
          some (.sessionMeta ((value.get "payload").bind sessionIdFromPayload))
        else if tag = "token_count" then
          (value.get "payload").map (fun payload =>
            .tokenCount (resetEpochFromJson payload resetsAtPath nowEpoch))
        else if tag = "turn_complete" then
          ((((value.get "payload").bind (Value.get "error")).bind
            (Value.get "codex_error_info")).bind Value.asStr).bind (fun info =>
              if info = usageLimitErrorInfo then some .usageLimit else none)
        else none))

structure PaneState where
  pending : Bytes := []
  sessionId : Option String := none
  resetsAt : Option ℤ := none

namespace PaneState

def apply (s : PaneState) : Record → Option LimitEvent × PaneState
  | .sessionMeta id => (none, { s with sessionId := id <|> s.sessionId })
  | .tokenCount resetsAt => (none, { s with resetsAt := resetsAt <|> s.resetsAt })
  | .usageLimit => (some ⟨s.sessionId, s.resetsAt, usageLimitErrorInfo⟩, s)

def applyAll (s : PaneState) (event : Option LimitEvent) :
    List Record → Option LimitEvent × PaneState
  | [] => (event, s)
  | record :: rest =>
    let (found, s) := s.apply record
    applyAll s (event <|> found) rest

def scanLines (parse : Bytes → Option Value) (nowEpoch : ℤ) (line : Bytes) :
    Bytes → List Record × Bytes
  | [] => ([], line)
  | b :: bs =>
    if b = newline then
      let (records, rest) := scanLines parse nowEpoch [] bs
      ((classifyLine parse nowEpoch line).toList ++ records, rest)
    else scanLines parse nowEpoch (line ++ [b]) bs

def consume (parse : Bytes → Option Value) (nowEpoch : ℤ) (s : PaneState) (chunk : Bytes) :
    Option LimitEvent × PaneState :=
  let (records, rest) := scanLines parse nowEpoch [] (s.pending ++ chunk)
  let (event, s) := s.applyAll none records
  (event, { s with pending := if maxRecordBytes < rest.length then [] else rest })

def applied (parse : Bytes → Option Value) (nowEpoch : ℤ) (s : PaneState) :
    List Bytes → List Record
  | [] => []
  | chunk :: rest =>
    (scanLines parse nowEpoch [] (s.pending ++ chunk)).1 ++
      applied parse nowEpoch (s.consume parse nowEpoch chunk).2 rest

def consumeAll (parse : Bytes → Option Value) (nowEpoch : ℤ) (s : PaneState)
    (chunks : List Bytes) : PaneState :=
  chunks.foldl (fun s chunk => (s.consume parse nowEpoch chunk).2) s

end PaneState

def completeLines (line : Bytes) : Bytes → List Bytes
  | [] => []
  | b :: bs => if b = newline then line :: completeLines [] bs else completeLines (line ++ [b]) bs

/-- What a content holds: its complete lines of at most the longest record's length, classified. -/
def records (parse : Bytes → Option Value) (nowEpoch : ℤ) (content : Bytes) : List Record :=
  ((completeLines [] content).filter (fun line => line.length ≤ maxRecordBytes)).filterMap
    (classifyLine parse nowEpoch)

variable {parse : Bytes → Option Value} {nowEpoch : ℤ} {s : PaneState} {line bytes content : Bytes}
  {chunks : List Bytes} {whole : Bool}

namespace PaneState

def known (s : PaneState) : Option String × Option ℤ := (s.sessionId, s.resetsAt)

end PaneState

end Nightcrow.Recovery.Codex
