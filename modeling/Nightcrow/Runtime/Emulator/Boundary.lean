import Mathlib

/-! Whether a byte stream stands at a sequence boundary: just enough of the terminal parser to
know that no sequence is in flight. -/

namespace Nightcrow.Runtime.Emulator

inductive StreamBoundary
  | ground
  | escape
  | escapeIntermediate
  | csi
  | osc
  | oscEsc
  | str
  | strEsc
  | utf8 (left : ℕ)
deriving DecidableEq, Repr

namespace StreamBoundary

def fromGround (byte : UInt8) : StreamBoundary :=
  if byte = 0x1b then escape
  else if 0xc2 ≤ byte ∧ byte ≤ 0xdf then utf8 1
  else if 0xe0 ≤ byte ∧ byte ≤ 0xef then utf8 2
  else if 0xf0 ≤ byte ∧ byte ≤ 0xf4 then utf8 3
  else ground

def fromEscape (byte : UInt8) : StreamBoundary :=
  if byte = 0x5b then csi
  else if byte = 0x5d then osc
  else if byte = 0x50 ∨ byte = 0x58 ∨ byte = 0x5e ∨ byte = 0x5f then str
  else if 0x20 ≤ byte ∧ byte ≤ 0x2f then escapeIntermediate
  else if byte = 0x18 ∨ byte = 0x1a then ground
  else if byte = 0x1b then escape
  else if 0x30 ≤ byte ∧ byte ≤ 0x7e then ground
  else escape

def step (s : StreamBoundary) (byte : UInt8) : StreamBoundary :=
  match s with
  | ground => fromGround byte
  | utf8 left =>
    if 0x80 ≤ byte ∧ byte ≤ 0xbf then if left = 1 then ground else utf8 (left - 1)
    else fromGround byte
  | escape => fromEscape byte
  | escapeIntermediate =>
    if 0x20 ≤ byte ∧ byte ≤ 0x2f then escapeIntermediate
    else if (0x30 ≤ byte ∧ byte ≤ 0x7e) ∨ byte = 0x18 ∨ byte = 0x1a then ground
    else if byte = 0x1b then escape
    else escapeIntermediate
  | csi =>
    if (0x40 ≤ byte ∧ byte ≤ 0x7e) ∨ byte = 0x18 ∨ byte = 0x1a then ground
    else if byte = 0x1b then escape
    else csi
  | osc =>
    if byte = 0x07 ∨ byte = 0x18 ∨ byte = 0x1a then ground
    else if byte = 0x1b then oscEsc
    else osc
  | oscEsc => if byte = 0x5c then ground else fromEscape byte
  | str =>
    if byte = 0x18 ∨ byte = 0x1a then ground
    else if byte = 0x1b then strEsc
    else str
  | strEsc => if byte = 0x5c then ground else fromEscape byte

def feed (s : StreamBoundary) (bytes : List UInt8) : StreamBoundary := bytes.foldl step s

def atBoundary (s : StreamBoundary) : Bool := s = ground

end StreamBoundary

end Nightcrow.Runtime.Emulator
