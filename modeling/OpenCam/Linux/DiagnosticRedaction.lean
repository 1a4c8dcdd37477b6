import OpenCam.Bytes.Lines
import OpenCam.Bytes.Text

/-!
`diagnostic_redaction.cpp`: the scanner that takes the user information out of
RTSP URLs, and the redactor that holds chunks back until a line is complete.
Positions are indices into the line, as in the source.
-/

namespace OpenCam.Linux

open Octets

section Redaction

def rtspScheme : Bytes := ascii "rtsp://"
def rtspsScheme : Bytes := ascii "rtsps://"

/-- `std::tolower` of the C locale. -/
def toLower (character : UInt8) : UInt8 :=
  if 65 ≤ character ∧ character ≤ 90 then character + 32 else character

/-- `matchesScheme` of `startsWithRtspScheme`. -/
def matchesScheme (value : Bytes) (pos : Nat) (scheme : Bytes) : Bool :=
  pos + scheme.length ≤ value.length &&
    ((value.drop pos).take scheme.length).map toLower == scheme

def startsWithRtspScheme (value : Bytes) (pos : Nat) : Bool :=
  matchesScheme value pos rtspsScheme || matchesScheme value pos rtspScheme

/-- The first position from the cursor on at which a scheme starts. -/
def findScheme (line : Bytes) (cursor : Nat) : Option Nat :=
  (List.range' cursor (line.length + 1 - 7 - cursor)).find? (startsWithRtspScheme line)

/-- The characters that end an authority. -/
def authorityTerminators : Bytes := ascii "/?# \t\r\n\"'<>)]\x7d"

/-- `line.find_first_of(characters, pos)`. -/
def findFirstOf (line characters : Bytes) (pos : Nat) : Option Nat :=
  ((line.drop pos).findIdx? (· ∈ characters)).map (pos + ·)

/-- The text from one position to another. -/
def slice (line : Bytes) (start stop : Nat) : Bytes := (line.drop start).take (stop - start)

/-- What is left of the authority between two positions. -/
def redactAuthority (line : Bytes) (authorityStart authorityEnd : Nat) : Bytes :=
  match rfindFrom line [64] authorityEnd with
  | some position =>
      if authorityStart ≤ position ∧ position < authorityEnd then
        ascii "[REDACTED]@" ++ slice line (position + 1) authorityEnd
      else slice line authorityStart authorityEnd
  | none => slice line authorityStart authorityEnd

/-- The length of the scheme that starts here. -/
def schemeLength (line : Bytes) (schemePos : Nat) : Nat :=
  if schemePos + 8 ≤ line.length ∧ toLower (line.getD (schemePos + 4) 0) = 115 ∧
      startsWithRtspScheme line schemePos then 8 else 7

/-- The outer loop, from a cursor on. A pass moves the cursor, so as many passes
as there are bytes are enough. -/
def redactFrom (line : Bytes) : Nat → Nat → Bytes
  | 0, _ => []
  | passes + 1, cursor =>
      if line.length ≤ cursor then []
      else
        match findScheme line cursor with
        | none => line.drop cursor
        | some schemePos =>
            let authorityStart := schemePos + schemeLength line schemePos
            let authorityEnd :=
              (findFirstOf line authorityTerminators authorityStart).getD line.length
            slice line cursor schemePos ++ slice line schemePos authorityStart ++
              redactAuthority line authorityStart authorityEnd ++
              redactFrom line passes authorityEnd

def redactCompleteLine (line : Bytes) : Bytes := redactFrom line (line.length + 1) 0

def redactRtspCredentials (input : Bytes) : Bytes := redactCompleteLine input

/-- One character of `sanitize`. -/
def sanitizeCharacter (character : UInt8) : UInt8 :=
  if character = 10 ∨ character = 13 ∨ character = 9 ∨ (0x20 ≤ character ∧ character ≤ 0x7e) then
    character
  else 63

def sanitize (input : Bytes) : Bytes := input.map sanitizeCharacter

end Redaction

section LineRedactor

structure DiagnosticLineRedactor where
  pending : Bytes := []
  discarding : Bool := false
deriving DecidableEq, Repr

namespace DiagnosticLineRedactor

def MAX_LINE_BYTES : Nat := 8192

def omission : Bytes := ascii "[diagnostic line omitted: exceeds limit]\n"

/-- The body of the loop of `consume`: what it outputs, and the state it leaves. -/
def take (redactor : DiagnosticLineRedactor) (c : UInt8) : Bytes × DiagnosticLineRedactor :=
  if redactor.discarding then
    if c = 10 then (omission, { redactor with discarding := false })
    else ([], redactor)
  else
    let pending := redactor.pending ++ [c]
    if c = 10 then (sanitize (redactCompleteLine pending), { redactor with pending := [] })
    else if pending.length > MAX_LINE_BYTES then ([], { pending := [], discarding := true })
    else ([], { redactor with pending := pending })

def consume (redactor : DiagnosticLineRedactor) : Bytes → Bytes × DiagnosticLineRedactor
  | [] => ([], redactor)
  | c :: chunk =>
      let taken := redactor.take c
      let later := consume taken.2 chunk
      (taken.1 ++ later.1, later.2)

/-- The calls of `consume` on one chunk after the other. -/
def consumeAll (redactor : DiagnosticLineRedactor) : List Bytes → Bytes × DiagnosticLineRedactor
  | [] => ([], redactor)
  | chunk :: chunks =>
      let consumed := redactor.consume chunk
      let later := consumeAll consumed.2 chunks
      (consumed.1 ++ later.1, later.2)

def finish (redactor : DiagnosticLineRedactor) : DiagnosticLineRedactor :=
  { redactor with pending := [], discarding := false }

end DiagnosticLineRedactor

end LineRedactor

end OpenCam.Linux
