import Nightcrow.Library.Cut
import Nightcrow.Library.Lines
import Nightcrow.Web.Request

namespace Nightcrow.Web.Sessions

open Nightcrow.Library

abbrev Text := List Char

def nanosPerSec : ℕ := 10 ^ 9

def clockEnd : ℤ := 2 ^ 63 * nanosPerSec

def checkedAdd (time : ℤ) (duration : ℕ) : Option ℤ :=
  if time + duration < clockEnd then some (time + duration) else none

abbrev Expiry := Option ℤ

def Expiry.ends (e : Expiry) : WithTop ℤ := e

-- `is_none_or(|at| at > time)`
def Expiry.after (e : Expiry) (time : ℤ) : Bool := e.all (fun t => time < t)

def never : Text := ['n', 'e', 'v', 'e', 'r']

structure Token where
  value : Text
  expiry : Expiry
  deriving DecidableEq

def parseExpiry (field : Text) : Option Expiry :=
  if field = never then some none
  else (parseUsize (String.ofList field)).bind (fun secs =>
    (checkedAdd 0 (secs * nanosPerSec)).map some)

def byExpiry (a b : Token) : Bool :=
  match a.expiry, b.expiry with
  | some a, some b => a ≤ b
  | some _, none => true
  | none, some _ => false
  | none, none => true

def keepFirst : List Text → List Token → List Token
  | _, [] => []
  | seen, t :: ts =>
    if t.value ∈ seen then keepFirst seen ts else t :: keepFirst (t.value :: seen) ts

def normalize (tokens : List Token) : List Token :=
  keepFirst [] (tokens.mergeSort byExpiry)

def ceiling (ttl : Option ℕ) (now : ℤ) : Expiry := ttl.bind (checkedAdd now)

def clamp (tokens : List Token) (ttl : Option ℕ) (now : ℤ) : List Token × Bool :=
  match ceiling ttl now with
  | none => (tokens, false)
  | some ceiling =>
    (tokens.map (fun t => if t.expiry.after ceiling then { t with expiry := ceiling } else t),
      tokens.any (fun t => t.expiry.after ceiling))

def sweep (tokens : List Token) (now : ℤ) : List Token :=
  tokens.filter (fun t => t.expiry.after now)

def trim (tokens : List Token) (cap : ℕ) (now : ℤ) : List Token :=
  (sweep tokens now).drop ((sweep tokens now).length - cap)

def secs (time : ℤ) : ℕ := (time / nanosPerSec).toNat

def expiryField : Expiry → Text
  | some time => (Nat.repr (secs time)).toList
  | none => never

def tokenLine (t : Token) : Text := t.value ++ '\t' :: expiryField t.expiry ++ ['\n']

def serialize (tokens : List Token) : Text := (tokens.map tokenLine).flatten

def lineText (line : Text) : Text :=
  -- `str::lines` leaves out the line feed and one carriage return before it
  if line.getLast? = some '\n' then
    if line.dropLast.getLast? = some '\r' then line.dropLast.dropLast else line.dropLast
  else line

def readLine (line : Text) : Option Token :=
  (Cut.splitOnce ['\t'] line).bind (fun (value, field) =>
    (parseExpiry (Library.trim (String.ofList field)).toList).map (fun expiry =>
      { value, expiry }))

def readTokens (data : Text) : List Token :=
  ((Lines.split '\n' data).map lineText).filterMap readLine

def maxSessions : ℕ := 64

def loadTokens (ttl : Option ℕ) (now : ℤ) (data : Text) : List Token :=
  trim (clamp (normalize (readTokens data)) ttl now).1 maxSessions now

def Token.truncated (t : Token) : Token :=
  { t with expiry := t.expiry.map (fun time => ((secs time * nanosPerSec : ℕ) : ℤ)) }

structure Token.Writable (t : Token) : Prop where
  value : '\t' ∉ t.value ∧ '\n' ∉ t.value
  expiry : ∀ time ∈ t.expiry, 0 ≤ time ∧ time < clockEnd

section Reading

lemma digits_of_repr {n : ℕ} {c : Char} (hc : c ∈ (Nat.repr n).toList) : c.isDigit := by
  rw [Nat.repr, String.toList_ofList] at hc
  exact Nat.isDigit_of_mem_toDigits (by decide) (by decide) hc

lemma parseUsize_repr {n : ℕ} (hn : n < 2 ^ 64) : parseUsize (Nat.repr n) = some n := by
  have hdigits : (Nat.repr n).toList = Nat.toDigits 10 n := by rw [Nat.repr, String.toList_ofList]
  have hvalue : (Nat.toDigits 10 n).foldl (fun n c => 10 * n + (c.toNat - '0'.toNat)) 0 = n := by
    rw [← Nat.ofDigitChars_eq_foldl]
    exact Nat.ofDigitChars_ten_toDigits
  have hall : (Nat.toDigits 10 n).all Char.isDigit := by
    rw [List.all_eq_true]
    intro c hc
    exact digits_of_repr (hdigits ▸ hc)
  have hne : Nat.toDigits 10 n ≠ [] := Nat.toDigits_ne_nil
  rw [parseUsize, hdigits]
  split
  · rename_i cs hcs
    have hplus := List.all_eq_true.mp hall '+' (hcs ▸ List.mem_cons_self)
    cases hplus
  · rw [hvalue, if_pos ⟨hne, hall, hn⟩]

lemma white_of_digit {c : Char} (hc : c.isDigit) : isWhiteSpace c = false := by
  have hlow : (48 : ℕ) ≤ c.val.toNat := by
    have h := (Bool.and_eq_true_iff.mp hc).1
    exact UInt32.le_iff_toNat_le.mp (of_decide_eq_true h)
  have hhigh : c.val.toNat ≤ 57 := by
    have h := (Bool.and_eq_true_iff.mp hc).2
    exact UInt32.le_iff_toNat_le.mp (of_decide_eq_true h)
  simp only [isWhiteSpace, Bool.or_eq_false_iff, Bool.and_eq_false_iff, decide_eq_false_iff_not,
    beq_eq_false_iff_ne, ne_eq, UInt32.le_iff_toNat_le, ← UInt32.toNat_inj, UInt32.toNat_ofNat]
  omega

lemma trim_of_clean {l : List Char} (h : ∀ c ∈ l, isWhiteSpace c = false) :
    (Library.trim (String.ofList l)).toList = l := by
  have hhead : ∀ m : List Char, (∀ c ∈ m, isWhiteSpace c = false) →
      m.dropWhile isWhiteSpace = m := by
    intro m hm
    rw [List.dropWhile_eq_self_iff]
    intro hlen
    rw [hm _ (List.getElem_mem hlen)]
    exact Bool.false_ne_true
  have hrev : ∀ c ∈ l.reverse, isWhiteSpace c = false := fun c hc => h c (List.mem_reverse.mp hc)
  rw [Library.trim, String.toList_ofList, String.toList_ofList, hhead l h, hhead _ hrev,
    List.reverse_reverse]

lemma expiryField_clean (e : Expiry) : ∀ c ∈ expiryField e, isWhiteSpace c = false := by
  cases e with
  | none =>
    have hall : never.all (fun c => !isWhiteSpace c) = true := rfl
    intro c hc
    exact (Bool.not_eq_true' _).mp (List.all_eq_true.mp hall c hc)
  | some time => exact fun c hc => white_of_digit (digits_of_repr hc)

lemma expiryField_ne_nil (e : Expiry) : expiryField e ≠ [] := by
  cases e with
  | none => decide
  | some time =>
    rw [expiryField, Nat.repr, String.toList_ofList]
    exact Nat.toDigits_ne_nil

lemma secs_lt {time : ℤ} (h : time < clockEnd) : secs time < 2 ^ 63 := by
  have hdiv : time / nanosPerSec < 2 ^ 63 := Int.ediv_lt_of_lt_mul (by norm_num [nanosPerSec]) h
  rw [secs]
  omega

lemma parseExpiry_expiryField {e : Expiry} (h : ∀ time ∈ e, time < clockEnd) :
    parseExpiry (expiryField e) =
      some (e.map (fun time => ((secs time * nanosPerSec : ℕ) : ℤ))) := by
  cases e with
  | none => rfl
  | some time =>
    have hsecs := secs_lt (h time rfl)
    have hne : (Nat.repr (secs time)).toList ≠ never := by
      intro heq
      have hmem : 'n' ∈ (Nat.repr (secs time)).toList := heq ▸ List.mem_cons_self
      have hdigit := digits_of_repr hmem
      cases hdigit
    have hbound : (0 : ℤ) + ((secs time * nanosPerSec : ℕ) : ℤ) < clockEnd := by
      rw [clockEnd, nanosPerSec]
      push_cast
      omega
    rw [expiryField, parseExpiry, if_neg hne, String.ofList_toList, parseUsize_repr (by omega),
      Option.bind_some, checkedAdd, if_pos hbound, Int.zero_add]
    rfl

lemma readLine_tokenLine {t : Token} (h : t.Writable) :
    readLine (lineText (tokenLine t)) = some t.truncated := by
  have hline : lineText (tokenLine t) = t.value ++ '\t' :: expiryField t.expiry := by
    have hlast : (tokenLine t).getLast? = some '\n' := List.getLast?_concat
    have hbody : (tokenLine t).dropLast = t.value ++ '\t' :: expiryField t.expiry :=
      List.dropLast_concat
    have hend : (t.value ++ '\t' :: expiryField t.expiry).getLast? ≠ some '\r' := by
      intro hcr
      have hmem : '\r' ∈ expiryField t.expiry := by
        rw [List.getLast?_append_of_ne_nil _ (List.cons_ne_nil _ _),
          List.getLast?_cons_of_ne_nil (expiryField_ne_nil _)] at hcr
        exact List.mem_of_getLast? hcr
      have hwhite := expiryField_clean _ _ hmem
      cases hwhite
    rw [lineText, if_pos hlast, hbody, if_neg hend]
  have hcut : Cut.splitOnce ['\t'] (t.value ++ '\t' :: expiryField t.expiry) =
      some (t.value, expiryField t.expiry) := Cut.splitOnce_append h.value.1
  rw [hline, readLine, hcut, Option.bind_some]
  dsimp only
  rw [trim_of_clean (expiryField_clean _),
    parseExpiry_expiryField (fun time ht => (h.expiry time ht).2)]
  rfl

lemma isLine_tokenLine {t : Token} (h : t.Writable) : Lines.IsLine '\n' (tokenLine t) := by
  refine ⟨t.value ++ '\t' :: expiryField t.expiry, fun hmem => ?_, rfl⟩
  rcases List.mem_append.mp hmem with hvalue | hfield
  · exact h.value.2 hvalue
  · rcases List.mem_cons.mp hfield with heq | hfield
    · cases heq
    · have hwhite := expiryField_clean _ _ hfield
      cases hwhite

lemma readTokens_serialize {ts : List Token} (h : ∀ t ∈ ts, t.Writable) :
    readTokens (serialize ts) = ts.map Token.truncated := by
  have hlines : ∀ l ∈ ts.map tokenLine, Lines.IsLine '\n' l := by
    intro l hl
    obtain ⟨t, ht, rfl⟩ := List.mem_map.mp hl
    exact isLine_tokenLine (h t ht)
  have hsplit := Lines.split_flatten_append hlines []
  rw [List.append_nil] at hsplit
  rw [readTokens, serialize, hsplit]
  change ((ts.map tokenLine ++ []).map lineText).filterMap readLine = _
  rw [List.append_nil, List.map_map, List.filterMap_map]
  exact (List.filterMap_congr (fun t ht => readLine_tokenLine (h t ht))).trans
    (congrFun List.filterMap_eq_map ts)

end Reading

section Order

variable {a b t u : Token} {ts : List Token} {seen : List Text} {ttl : Option ℕ} {now : ℤ}

lemma byExpiry_iff : byExpiry a b = true ↔ a.expiry.ends ≤ b.expiry.ends := by
  rw [byExpiry]
  cases ha : a.expiry with
  | none =>
    cases b.expiry with
    | none => exact iff_of_true rfl le_rfl
    | some y => exact iff_of_false Bool.false_ne_true (not_le.mpr (WithTop.coe_lt_top y))
  | some x =>
    cases b.expiry with
    | none => exact iff_of_true rfl le_top
    | some y => exact decide_eq_true_iff.trans WithTop.coe_le_coe.symm

lemma after_iff {e : Expiry} {time : ℤ} :
    e.after time = true ↔ (time : WithTop ℤ) < e.ends := by
  cases e with
  | none => exact iff_of_true rfl (WithTop.coe_lt_top time)
  | some t => exact decide_eq_true_iff.trans WithTop.coe_lt_coe.symm

structure Tidy (ts : List Token) : Prop where
  nodup : (ts.map Token.value).Nodup
  sorted : ts.Pairwise (fun a b => a.expiry.ends ≤ b.expiry.ends)

lemma Tidy.sublist {us : List Token} (h : Tidy ts) (hs : us.Sublist ts) : Tidy us :=
  ⟨h.nodup.sublist (hs.map _), h.sorted.sublist hs⟩

lemma keepFirst_sublist (seen : List Text) (ts : List Token) : (keepFirst seen ts).Sublist ts := by
  induction ts generalizing seen with
  | nil => exact List.Sublist.refl _
  | cons t ts ih =>
    rw [keepFirst]
    split
    · exact (ih seen).cons t
    · exact (ih _).cons_cons t

lemma keepFirst_nodup (seen : List Text) (ts : List Token) :
    ((keepFirst seen ts).map Token.value).Nodup ∧ ∀ t ∈ keepFirst seen ts, t.value ∉ seen := by
  induction ts generalizing seen with
  | nil => exact ⟨List.nodup_nil, List.forall_mem_nil _⟩
  | cons t ts ih =>
    rw [keepFirst]
    split
    · exact ih seen
    · rename_i hnew
      obtain ⟨hnodup, hseen⟩ := ih (t.value :: seen)
      refine ⟨List.nodup_cons.mpr ⟨fun hmem => ?_, hnodup⟩, List.forall_mem_cons.mpr ⟨hnew, ?_⟩⟩
      · obtain ⟨u, hu, heq⟩ := List.mem_map.mp hmem
        exact hseen u hu (heq ▸ List.mem_cons_self)
      · exact fun u hu hmem => hseen u hu (List.mem_cons_of_mem _ hmem)

lemma keepFirst_earliest (hsorted : ts.Pairwise (fun a b => a.expiry.ends ≤ b.expiry.ends))
    (hu : u ∈ ts) (hnew : u.value ∉ seen) :
    ∃ t ∈ keepFirst seen ts, t.value = u.value ∧ t.expiry.ends ≤ u.expiry.ends := by
  induction ts generalizing seen with
  | nil => cases hu
  | cons t ts ih =>
    obtain ⟨hfirst, hsorted⟩ := List.pairwise_cons.mp hsorted
    rw [keepFirst]
    rcases List.mem_cons.mp hu with rfl | hu
    · rw [if_neg hnew]
      exact ⟨u, List.mem_cons_self, rfl, le_rfl⟩
    · split
      · exact ih hsorted hu hnew
      · by_cases heq : u.value = t.value
        · exact ⟨t, List.mem_cons_self, heq.symm, hfirst u hu⟩
        · have hnew' : u.value ∉ t.value :: seen := List.not_mem_cons_of_ne_of_not_mem heq hnew
          obtain ⟨v, hv, hvalue, hle⟩ := ih hsorted hu hnew'
          exact ⟨v, List.mem_cons_of_mem _ hv, hvalue, hle⟩

lemma keepFirst_of_nodup (hnodup : (ts.map Token.value).Nodup) (hnew : ∀ t ∈ ts, t.value ∉ seen) :
    keepFirst seen ts = ts := by
  induction ts generalizing seen with
  | nil => rfl
  | cons t ts ih =>
    obtain ⟨ht, hts⟩ := List.forall_mem_cons.mp hnew
    obtain ⟨hfirst, hnodup⟩ := List.nodup_cons.mp hnodup
    rw [keepFirst, if_neg ht, ih hnodup]
    intro u hu hmem
    rcases List.mem_cons.mp hmem with heq | hmem
    · exact hfirst (heq ▸ List.mem_map_of_mem hu)
    · exact hts u hu hmem

lemma sorted_mergeSort (ts : List Token) :
    (ts.mergeSort byExpiry).Pairwise (fun a b => a.expiry.ends ≤ b.expiry.ends) := by
  refine (List.pairwise_mergeSort (fun a b c hab hbc => ?_) (fun a b => ?_) ts).imp
    byExpiry_iff.mp
  · exact byExpiry_iff.mpr ((byExpiry_iff.mp hab).trans (byExpiry_iff.mp hbc))
  · rw [Bool.or_eq_true, byExpiry_iff, byExpiry_iff]
    exact le_total _ _

lemma normalize_tidy (ts : List Token) : Tidy (normalize ts) :=
  ⟨(keepFirst_nodup [] _).1, (sorted_mergeSort ts).sublist (keepFirst_sublist [] _)⟩

lemma normalize_of_tidy (h : Tidy ts) : normalize ts = ts := by
  rw [normalize, List.mergeSort_of_pairwise (h.sorted.imp byExpiry_iff.mpr)]
  exact keepFirst_of_nodup h.nodup (fun _ _ => List.not_mem_nil)

lemma mem_of_mem_normalize (h : t ∈ normalize ts) : t ∈ ts :=
  List.mem_mergeSort.mp ((keepFirst_sublist [] _).subset h)

lemma normalize_earliest (h : u ∈ ts) :
    ∃ t ∈ normalize ts, t.value = u.value ∧ t.expiry.ends ≤ u.expiry.ends :=
  keepFirst_earliest (sorted_mergeSort ts) (List.mem_mergeSort.mpr h) List.not_mem_nil

lemma clamp_eq_map (ts : List Token) (ttl : Option ℕ) (now : ℤ) : ∃ f : Token → Token,
    (clamp ts ttl now).1 = ts.map f ∧ ∀ t, (f t).value = t.value ∧
      (f t).expiry.ends = min t.expiry.ends (ceiling ttl now).ends ∧
      ((f t).expiry = t.expiry ∨ (f t).expiry = ceiling ttl now) := by
  rw [clamp]
  cases ceiling ttl now with
  | none => exact ⟨id, (List.map_id ts).symm, fun t => ⟨rfl, (min_eq_left le_top).symm, .inl rfl⟩⟩
  | some top =>
    refine ⟨_, rfl, fun t => ?_⟩
    split
    · rename_i hafter
      exact ⟨rfl, (min_eq_right (after_iff.mp hafter).le).symm, .inr rfl⟩
    · rename_i hbefore
      exact ⟨rfl, (min_eq_left (not_lt.mp (fun hlt => hbefore (after_iff.mpr hlt)))).symm, .inl rfl⟩

lemma clamp_tidy (h : Tidy ts) : Tidy (clamp ts ttl now).1 := by
  obtain ⟨f, hf, hspec⟩ := clamp_eq_map ts ttl now
  rw [hf]
  refine ⟨?_, List.pairwise_map.mpr (h.sorted.imp (fun hle => ?_))⟩
  · rw [List.map_map, show Token.value ∘ f = Token.value from funext (fun t => (hspec t).1)]
    exact h.nodup
  · rw [(hspec _).2.1, (hspec _).2.1]
    exact min_le_min_right _ hle

lemma clamp_of_le (h : ∀ t ∈ ts, t.expiry.ends ≤ (ceiling ttl now).ends) :
    (clamp ts ttl now).1 = ts := by
  rw [clamp]
  cases htop : ceiling ttl now with
  | none => rfl
  | some top =>
    rw [htop] at h
    refine (List.map_congr_left (fun t ht => if_neg (fun hafter => ?_))).trans (List.map_id ts)
    exact (after_iff.mp hafter).not_ge (h t ht)

lemma trim_sublist (ts : List Token) (cap : ℕ) (now : ℤ) : (trim ts cap now).Sublist ts :=
  (List.drop_sublist _ _).trans List.filter_sublist

lemma length_trim_le (ts : List Token) (cap : ℕ) (now : ℤ) : (trim ts cap now).length ≤ cap := by
  rw [trim, List.length_drop]
  omega

lemma after_of_mem_trim {cap : ℕ} (h : t ∈ trim ts cap now) : t.expiry.after now = true :=
  (List.mem_filter.mp (List.mem_of_mem_drop h)).2

lemma trim_of_le {cap : ℕ} (h : ts.length ≤ cap) : trim ts cap now = sweep ts now := by
  have hlen : (sweep ts now).length ≤ cap := (List.length_filter_le _ _).trans h
  rw [trim, Nat.sub_eq_zero_of_le hlen, List.drop_zero]

lemma mem_trim {cap : ℕ} (h : t ∈ ts) (hafter : t.expiry.after now = true) :
    t ∈ trim ts cap now ∨ (trim ts cap now).length = cap := by
  by_cases hlen : (sweep ts now).length ≤ cap
  · rw [trim, Nat.sub_eq_zero_of_le hlen, List.drop_zero]
    exact .inl (List.mem_filter.mpr ⟨h, hafter⟩)
  · rw [trim, List.length_drop]
    omega

end Order

section Loading

variable {t u : Token} {ts : List Token} {ttl : Option ℕ} {now now' : ℤ} {data : Text}

lemma newline_not_mem_lineText {l : Text} (h : l ∈ Lines.split '\n' data) :
    '\n' ∉ lineText l := by
  obtain ⟨body, hbody, rfl | rfl⟩ := Lines.mem_split_body h
  · rw [lineText, if_pos List.getLast?_concat, List.dropLast_concat]
    split
    · exact fun hmem => hbody (List.mem_of_mem_dropLast hmem)
    · exact hbody
  · rw [lineText, if_neg (fun heq => hbody (List.mem_of_getLast? heq))]
    exact hbody

lemma checkedAdd_eq_some {time t : ℤ} {d : ℕ} (h : checkedAdd time d = some t) :
    t = time + d ∧ t < clockEnd := by
  rw [checkedAdd] at h
  split at h
  · rename_i hlt
    obtain rfl := Option.some.inj h
    exact ⟨rfl, hlt⟩
  · cases h

lemma parseExpiry_bounds {field : Text} {e : Expiry} (h : parseExpiry field = some e) :
    ∀ time ∈ e, 0 ≤ time ∧ time < clockEnd := by
  rw [parseExpiry] at h
  split at h
  · obtain rfl := Option.some.inj h
    intro time ht
    cases ht
  · obtain ⟨n, -, hmap⟩ := Option.bind_eq_some_iff.mp h
    obtain ⟨t, hadd, rfl⟩ := Option.map_eq_some_iff.mp hmap
    intro time ht
    obtain rfl := Option.some.inj ht
    obtain ⟨heq, hlt⟩ := checkedAdd_eq_some hadd
    refine ⟨?_, hlt⟩
    rw [heq, Int.zero_add]
    exact Int.natCast_nonneg _

lemma writable_of_mem_readTokens (h : t ∈ readTokens data) : t.Writable := by
  obtain ⟨line, hline, ht⟩ := List.mem_filterMap.mp h
  obtain ⟨l, hl, rfl⟩ := List.mem_map.mp hline
  obtain ⟨⟨value, field⟩, hcut, ht⟩ := Option.bind_eq_some_iff.mp ht
  obtain ⟨e, he, rfl⟩ := Option.map_eq_some_iff.mp ht
  refine ⟨⟨Cut.not_mem_of_splitOnce hcut, fun hmem => newline_not_mem_lineText hl ?_⟩,
    parseExpiry_bounds he⟩
  rw [Cut.splitOnce_eq hcut]
  exact List.mem_append_left _ (List.mem_append_left _ hmem)

lemma nanosPerSec_pos : (0 : ℤ) < (nanosPerSec : ℤ) :=
  Int.natCast_pos.mpr (by norm_num [nanosPerSec])

lemma secs_le {time : ℤ} (h : 0 ≤ time) : ((secs time * nanosPerSec : ℕ) : ℤ) ≤ time := by
  have hdiv := Int.ediv_mul_le time nanosPerSec_pos.ne'
  rw [secs]
  push_cast
  rwa [Int.toNat_of_nonneg (Int.ediv_nonneg h nanosPerSec_pos.le)]

lemma secs_mono {x y : ℤ} (h : x ≤ y) : secs x ≤ secs y :=
  Int.toNat_le_toNat (Int.ediv_le_ediv nanosPerSec_pos h)

lemma truncated_le (h : t.Writable) : t.truncated.expiry.ends ≤ t.expiry.ends := by
  rw [Token.truncated]
  cases he : t.expiry with
  | none => exact le_rfl
  | some time =>
    exact WithTop.coe_le_coe.mpr (secs_le (h.expiry time he).1)

lemma truncated_mono (h : t.expiry.ends ≤ u.expiry.ends) :
    t.truncated.expiry.ends ≤ u.truncated.expiry.ends := by
  rw [Token.truncated, Token.truncated]
  cases hu : u.expiry with
  | none => exact le_top
  | some y =>
    cases ht : t.expiry with
    | none =>
      rw [ht, hu] at h
      exact absurd h (not_le.mpr (WithTop.coe_lt_top y))
    | some x =>
      rw [ht, hu] at h
      have hxy := Nat.mul_le_mul_right nanosPerSec (secs_mono (WithTop.coe_le_coe.mp h))
      exact WithTop.coe_le_coe.mpr (Int.ofNat_le.mpr hxy)

lemma Tidy.truncated (h : Tidy ts) : Tidy (ts.map Token.truncated) := by
  refine ⟨?_, List.pairwise_map.mpr (h.sorted.imp truncated_mono)⟩
  rw [List.map_map]
  exact h.nodup

lemma ceiling_mono (h : now ≤ now') : (ceiling ttl now).ends ≤ (ceiling ttl now').ends := by
  cases ttl with
  | none => exact le_rfl
  | some ttl =>
    rw [ceiling, ceiling, Option.bind_some, Option.bind_some, checkedAdd, checkedAdd]
    by_cases hlt : now' + ttl < clockEnd
    · rw [if_pos hlt, if_pos (by omega)]
      exact WithTop.coe_le_coe.mpr (by omega)
    · rw [if_neg hlt]
      exact le_top

lemma ceiling_bounds (hnow : 0 ≤ now) : ∀ time ∈ ceiling ttl now, 0 ≤ time ∧ time < clockEnd := by
  intro time ht
  obtain ⟨ttl, -, hadd⟩ := Option.bind_eq_some_iff.mp ht
  obtain ⟨rfl, hlt⟩ := checkedAdd_eq_some hadd
  exact ⟨by positivity, hlt⟩

structure Loaded (ttl : Option ℕ) (now : ℤ) (data : Text) (ts : List Token) : Prop where
  tidy : Tidy ts
  few : ts.length ≤ maxSessions
  writable : ∀ t ∈ ts, t.Writable
  live : ∀ t ∈ ts, t.expiry.after now = true
  capped : ∀ t ∈ ts, t.expiry.ends ≤ (ceiling ttl now).ends
  named : ∀ t ∈ ts, ∃ u ∈ readTokens data, u.value = t.value
  earliest : ∀ t ∈ ts, ∀ u ∈ readTokens data, u.value = t.value → t.expiry.ends ≤ u.expiry.ends
  kept : (ceiling ttl now).after now = true → ∀ u ∈ readTokens data,
    (∀ v ∈ readTokens data, v.value = u.value → v.expiry.after now = true) →
    (∃ t ∈ ts, t.value = u.value) ∨ ts.length = maxSessions

lemma loadTokens_loaded (ttl : Option ℕ) (data : Text) (hnow : 0 ≤ now) :
    Loaded ttl now data (loadTokens ttl now data) := by
  obtain ⟨f, hf, hspec⟩ := clamp_eq_map (normalize (readTokens data)) ttl now
  have hfrom : ∀ t ∈ loadTokens ttl now data, ∃ u ∈ normalize (readTokens data), f u = t := by
    intro t ht
    have hmem := (trim_sublist _ _ _).subset ht
    rw [hf] at hmem
    exact List.mem_map.mp hmem
  refine ⟨(clamp_tidy (normalize_tidy _)).sublist (trim_sublist _ _ _), length_trim_le _ _ _,
    fun t ht => ?_, fun t ht => after_of_mem_trim ht, fun t ht => ?_, fun t ht => ?_,
    fun t ht u hu hvalue => ?_, fun htop u hu hlive => ?_⟩
  · obtain ⟨u, hu, rfl⟩ := hfrom t ht
    have hwritable := writable_of_mem_readTokens (mem_of_mem_normalize hu)
    refine ⟨(hspec u).1.symm ▸ hwritable.value, ?_⟩
    rcases (hspec u).2.2 with heq | heq
    · exact heq.symm ▸ hwritable.expiry
    · exact heq.symm ▸ ceiling_bounds hnow
  · obtain ⟨u, -, rfl⟩ := hfrom t ht
    rw [(hspec u).2.1]
    exact min_le_right _ _
  · obtain ⟨u, hu, rfl⟩ := hfrom t ht
    exact ⟨u, mem_of_mem_normalize hu, (hspec u).1.symm⟩
  · obtain ⟨v, hv, rfl⟩ := hfrom t ht
    obtain ⟨w, hw, hwvalue, hle⟩ := normalize_earliest hu
    have hsame : w = v := List.inj_on_of_nodup_map (normalize_tidy _).nodup hw hv
      (hwvalue.trans (hvalue.trans (hspec v).1))
    rw [(hspec v).2.1, ← hsame]
    exact (min_le_left _ _).trans hle
  · obtain ⟨v, hv, hvalue, -⟩ := normalize_earliest hu
    have hvlive := after_iff.mp (hlive v (mem_of_mem_normalize hv) hvalue)
    have hafter : (f v).expiry.after now = true := by
      rw [after_iff, (hspec v).2.1]
      exact lt_min hvlive (after_iff.mp htop)
    have hmem : f v ∈ (clamp (normalize (readTokens data)) ttl now).1 :=
      hf.symm ▸ List.mem_map_of_mem hv
    exact (mem_trim hmem hafter).imp_left (fun hkept => ⟨f v, hkept, (hspec v).1.trans hvalue⟩)

lemma loadTokens_serialize (htidy : Tidy ts) (hfew : ts.length ≤ maxSessions)
    (hwritable : ∀ t ∈ ts, t.Writable)
    (hcapped : ∀ t ∈ ts, t.expiry.ends ≤ (ceiling ttl now).ends) :
    loadTokens ttl now (serialize ts) = sweep (ts.map Token.truncated) now := by
  have hcapped' : ∀ t ∈ ts.map Token.truncated, t.expiry.ends ≤ (ceiling ttl now).ends := by
    intro t ht
    obtain ⟨u, hu, rfl⟩ := List.mem_map.mp ht
    exact (truncated_le (hwritable u hu)).trans (hcapped u hu)
  have hfew' : (ts.map Token.truncated).length ≤ maxSessions := by rwa [List.length_map]
  rw [loadTokens, readTokens_serialize hwritable, normalize_of_tidy htidy.truncated,
    clamp_of_le hcapped', trim_of_le hfew']

/-- Loading settles the file: of whatever it held it keeps one live token a value, at most the
cap, none past what its lines or the lifetime allow; and what is then written is loaded as it is
at any later time, but for the tokens that ran out. -/
theorem load_settles (ttl : Option ℕ) (data : Text) (hnow : 0 ≤ now) (hlater : now ≤ now') :
    Loaded ttl now data (loadTokens ttl now data) ∧
      loadTokens ttl now' (serialize (loadTokens ttl now data)) =
        sweep ((loadTokens ttl now data).map Token.truncated) now' := by
  have h := loadTokens_loaded ttl data hnow
  refine ⟨h, loadTokens_serialize h.tidy h.few h.writable (fun t ht => ?_)⟩
  exact (h.capped t ht).trans (ceiling_mono hlater)

def listedTwice : Text := "a\t9\nb\tnever\nc\t1\nno login\na\t3\n".toList

lemma loadTokens_listedTwice : loadTokens (some (5 * nanosPerSec)) 0 listedTwice =
    [⟨['c'], some 1000000000⟩, ⟨['a'], some 3000000000⟩, ⟨['b'], some 5000000000⟩] := by
  have hread : readTokens listedTwice = [⟨['a'], some 9000000000⟩, ⟨['b'], none⟩,
      ⟨['c'], some 1000000000⟩, ⟨['a'], some 3000000000⟩] := by decide +kernel
  have hsorted : (readTokens listedTwice).mergeSort byExpiry = [⟨['c'], some 1000000000⟩,
      ⟨['a'], some 3000000000⟩, ⟨['a'], some 9000000000⟩, ⟨['b'], none⟩] := by
    rw [hread]
    simp [List.mergeSort, List.merge, byExpiry]
  rw [loadTokens, normalize, hsorted]
  decide

theorem load_settles_listed_twice :
    loadTokens (some (5 * nanosPerSec)) 2000000000
        (serialize (loadTokens (some (5 * nanosPerSec)) 0 listedTwice)) =
      [⟨['a'], some 3000000000⟩, ⟨['b'], some 5000000000⟩] := by
  have hsettles := (load_settles (some (5 * nanosPerSec)) listedTwice (le_refl (0 : ℤ))
    (show (0 : ℤ) ≤ 2000000000 by decide)).2
  rw [hsettles, loadTokens_listedTwice]
  decide

end Loading

end Nightcrow.Web.Sessions
