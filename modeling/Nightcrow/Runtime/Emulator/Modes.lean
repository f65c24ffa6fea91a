import Mathlib

namespace Nightcrow.Runtime.Emulator

structure PaneModes where
  altScreen : Bool := false
  appCursor : Bool := false
  bracketedPaste : Bool := false
  showCursor : Bool := true
  lineWrap : Bool := true
  mouseClick : Bool := false
  mouseDrag : Bool := false
  mouseMotion : Bool := false
  sgrMouse : Bool := false
  utf8Mouse : Bool := false
  alternateScroll : Bool := true
  focusInOut : Bool := false
deriving DecidableEq, Repr

def digits (n : ℕ) : List UInt8 :=
  ((Nat.digits 10 n).reverse).map (fun d => UInt8.ofNat (48 + d))

def decPrivate (number : ℕ) (enabled : Bool) : List UInt8 :=
  [0x1b, 0x5b, 0x3f] ++ digits number ++ [if enabled then 0x68 else 0x6c]

namespace PaneModes

def listed (m : PaneModes) : List (ℕ × Bool) :=
  [(1049, m.altScreen), (1, m.appCursor), (7, m.lineWrap), (25, m.showCursor),
    (1000, m.mouseClick), (1002, m.mouseDrag), (1003, m.mouseMotion), (1004, m.focusInOut),
    (1005, m.utf8Mouse), (1006, m.sgrMouse), (1007, m.alternateScroll), (2004, m.bracketedPaste)]

def prelude (m : PaneModes) : List UInt8 :=
  m.listed.flatMap (fun e => decPrivate e.1 e.2)

lemma prelude_length (m : PaneModes) : m.prelude.length = 88 := by
  simp [prelude, listed, decPrivate, digits]

end PaneModes

end Nightcrow.Runtime.Emulator
