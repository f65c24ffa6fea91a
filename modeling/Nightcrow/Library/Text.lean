import Mathlib

namespace Nightcrow.Library

def isWhiteSpace (c : Char) : Bool :=
  -- the Unicode `White_Space` property
  (0x9 ≤ c.val && c.val ≤ 0xd) || c.val == 0x20 || c.val == 0x85 || c.val == 0xa0 ||
    c.val == 0x1680 || (0x2000 ≤ c.val && c.val ≤ 0x200a) || c.val == 0x2028 ||
    c.val == 0x2029 || c.val == 0x202f || c.val == 0x205f || c.val == 0x3000

def isControl (c : Char) : Bool :=
  -- the Unicode general category `Cc`
  c.val ≤ 0x1f || (0x7f ≤ c.val && c.val ≤ 0x9f)

lemma of_toLower {c d : Char} (h : c.toLower = d) (hd : ¬ ('a' ≤ d ∧ d ≤ 'z')) : c = d := by
  rw [Char.toLower] at h
  split at h
  · rename_i hupper
    subst h
    have hlow : (65 : ℕ) ≤ c.val.toNat := UInt32.le_iff_toNat_le.mp hupper.1
    have hhigh : c.val.toNat ≤ 90 := UInt32.le_iff_toNat_le.mp hupper.2
    have hval : (c.val + ('a'.val - 'A'.val)).toNat = c.val.toNat + 32 := by
      rw [UInt32.toNat_add]
      exact Nat.mod_eq_of_lt (b := 2 ^ 32) (a := c.val.toNat + 32) (by omega)
    refine absurd ⟨?_, ?_⟩ hd
    · refine UInt32.le_iff_toNat_le.mpr ?_
      rw [hval]
      exact Nat.add_le_add_right hlow 32
    · refine UInt32.le_iff_toNat_le.mpr ?_
      rw [hval]
      exact Nat.add_le_add_right hhigh 32
  · exact h

def trim (s : String) : String :=
  String.ofList
    (((s.toList.dropWhile isWhiteSpace).reverse.dropWhile isWhiteSpace).reverse)

lemma trim_trim (s : String) : trim (trim s) = trim s := by
  have hhead : ∀ l : List Char, ((l.dropWhile isWhiteSpace).rdropWhile isWhiteSpace).dropWhile
      isWhiteSpace = (l.dropWhile isWhiteSpace).rdropWhile isWhiteSpace := by
    intro l
    rw [List.dropWhile_eq_self_iff]
    intro hl
    have hkept := List.rdropWhile_prefix isWhiteSpace (l := l.dropWhile isWhiteSpace)
    rw [hkept.getElem]
    exact List.dropWhile_get_zero_not _ _ _
  have hlist : (trim s).toList =
      (s.toList.dropWhile isWhiteSpace).rdropWhile isWhiteSpace := String.toList_ofList
  rw [trim, hlist, hhead, ← List.rdropWhile, List.rdropWhile_idempotent]
  rfl

end Nightcrow.Library
