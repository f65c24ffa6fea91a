import Nightcrow.Web.SessionsFile

namespace Nightcrow.Web.Sessions

def hexDigits (b : UInt8) : Text := [Nat.digitChar (b.toNat / 16), Nat.digitChar (b.toNat % 16)]

def hex (bytes : List UInt8) : Text := bytes.flatMap hexDigits

def issueExpiry (ttl : Option ℕ) (now : ℤ) : Option Expiry :=
  match ttl with
  | none => some none
  | some ttl => (checkedAdd now ttl).map some

def issue (tokens : List Token) (token : Token) (now : ℤ) : List Token :=
  trim (tokens ++ [token]) maxSessions now

def revoke (tokens : List Token) (value : Text) : List Token × Bool :=
  let left := tokens.filter (fun t => t.value ≠ value)
  (left, left.length ≠ tokens.length)

def isValid (tokens : List Token) (value : Text) (now : ℤ) : Bool × Bool :=
  match tokens.find? (fun t => t.value = value) with
  | none => (false, false)
  | some found => if found.expiry.after now then (true, false) else (false, true)

/-- The store and its file. A call that is to write waits in `pending` with the token it revoked,
if that is what it did. `unread` is a start that could not read the file, until something is
written; `known` has every login as the file first had it or as it was issued, and `gone` the
tokens whose revocation was written. -/
structure World where
  ttl : Option ℕ
  tokens : List Token
  file : Option Text
  writing : Option (Text × Option Text) := none
  pending : List (Option Text) := []
  failed : Bool := false
  unread : Bool := false
  known : List Token
  gone : List Text := []

namespace World

def content (w : World) : Text := w.file.getD []

def load (w : World) (ttl : Option ℕ) (now : ℤ) (readable : Bool) : World :=
  if readable then
    let tokens := loadTokens ttl now w.content
    { w with
      ttl, tokens
      writing := none
      pending := if serialize tokens ≠ w.content then [none] else []
      failed := false
      unread := false }
  else
    { w with ttl, tokens := [], writing := none, pending := [], failed := false, unread := true }

/-- The file system hands out what was written whole or not at all, a restart comes at any time,
and the tokens issued are new ones. -/
inductive Step : World → World → Prop
  | issue (w : World) (bytes : List UInt8) (expiry : Expiry) (now now' : ℤ) (hnow : 0 ≤ now)
      (hexpiry : issueExpiry w.ttl now = some expiry)
      (hnew : ∀ k ∈ w.known, k.value ≠ hex bytes) :
      Step w { w with
        tokens := Sessions.issue w.tokens { value := hex bytes, expiry } now'
        pending := none :: w.pending
        known := { value := hex bytes, expiry } :: w.known }
  | revoke (w : World) (value : Text) :
      Step w { w with
        tokens := (Sessions.revoke w.tokens value).1
        pending := if (Sessions.revoke w.tokens value).2 then some value :: w.pending
          else w.pending }
  | isValid (w : World) (value : Text) (now : ℤ) :
      Step w { w with
        pending := if (Sessions.isValid w.tokens value now).2 then none :: w.pending
          else w.pending }
  | snapshot (w : World) (caller : Option Text) (now : ℤ) (hpending : caller ∈ w.pending)
      (hfree : w.writing = none) :
      Step w { w with
        tokens := sweep w.tokens now
        writing := some (serialize (sweep w.tokens now), caller)
        pending := w.pending.erase caller }
  | written (w : World) (data : Text) (caller : Option Text)
      (hwriting : w.writing = some (data, caller)) :
      Step w { w with
        file := some data
        writing := none
        failed := false
        unread := false
        gone := caller.toList ++ w.gone }
  | failed (w : World) (hwriting : w.writing.isSome) :
      Step w { w with writing := none, failed := true }
  | restart (w : World) (ttl : Option ℕ) (now : ℤ) (readable : Bool) (hnow : 0 ≤ now) :
      Step w (w.load ttl now readable)

inductive Reaches : World → Prop
  | opened (file : Option Text) (ttl : Option ℕ) (now : ℤ) (readable : Bool) (hnow : 0 ≤ now) :
      Reaches (load
        { ttl, file, tokens := [], known := readTokens (file.getD []) } ttl now readable)
  | step {w w' : World} : Reaches w → Step w w' → Reaches w'

def Bounded (known : List Token) (t : Token) : Prop :=
  (∃ k ∈ known, k.value = t.value) ∧
    ∀ k ∈ known, k.value = t.value → t.expiry.ends ≤ k.expiry.ends

structure Shot (w : World) (ts : List Token) (caller : Option Text) : Prop where
  writable : ∀ t ∈ ts, t.Writable
  bounded : ∀ t ∈ ts, Bounded w.known t
  gone : ∀ t ∈ ts, t.value ∉ w.gone
  revoked : ∀ t ∈ ts, some t.value ≠ caller

structure Sound (w : World) : Prop where
  few : w.tokens.length ≤ maxSessions
  nodup : (w.tokens.map Token.value).Nodup
  writable : ∀ t ∈ w.tokens, t.Writable
  bounded : ∀ t ∈ w.tokens, Bounded w.known t
  read : ∀ t ∈ readTokens w.content, (∃ k ∈ w.known, k.value = t.value) ∧
    ∀ k ∈ w.known, k.value = t.value →
      ∃ u ∈ readTokens w.content, u.value = t.value ∧ u.expiry.ends ≤ k.expiry.ends
  shot : ∀ data caller, w.writing = some (data, caller) →
    ∃ ts, data = serialize ts ∧ Shot w ts caller
  settled : w.pending = [] →
    (∀ data caller, w.writing = some (data, caller) → data = serialize w.tokens) ∧
    (w.writing = none → w.failed = false → w.unread = false → w.content = serialize w.tokens)
  owed : ∀ v, some v ∈ w.pending ∨ (∃ data, w.writing = some (data, some v)) →
    (∃ k ∈ w.known, k.value = v) ∧ ∀ t ∈ w.tokens, t.value ≠ v
  gone : ∀ v ∈ w.gone, (∃ k ∈ w.known, k.value = v) ∧ (∀ t ∈ w.tokens, t.value ≠ v) ∧
    ∀ t ∈ readTokens w.content, t.value ≠ v

variable {w w' : World} {t : Token} {known : List Token}

lemma Bounded.cons {k : Token} (h : Bounded known t) (hnew : k.value ≠ t.value) :
    Bounded (k :: known) t := by
  obtain ⟨⟨old, hold, hvalue⟩, hle⟩ := h
  refine ⟨⟨old, List.mem_cons_of_mem _ hold, hvalue⟩, fun j hj hsame => ?_⟩
  rcases List.mem_cons.mp hj with rfl | hj
  · exact absurd hsame hnew
  · exact hle j hj hsame

lemma Bounded.truncated (h : Bounded known t) (ht : t.Writable) : Bounded known t.truncated :=
  ⟨h.1, fun k hk hsame => (truncated_le ht).trans (h.2 k hk hsame)⟩

lemma hex_clean (bytes : List UInt8) : '\t' ∉ hex bytes ∧ '\n' ∉ hex bytes := by
  have hdigit : ∀ n < 16, Nat.digitChar n ≠ '\t' ∧ Nat.digitChar n ≠ '\n' := by decide
  have hbyte : ∀ b : UInt8, ∀ c ∈ hexDigits b, c ≠ '\t' ∧ c ≠ '\n' := by
    intro b c hc
    have hb := b.toNat_lt
    rcases List.mem_cons.mp hc with rfl | hc
    · exact hdigit _ (by omega)
    · obtain rfl := List.mem_singleton.mp hc
      exact hdigit _ (by omega)
  refine ⟨fun hmem => ?_, fun hmem => ?_⟩
  · obtain ⟨b, -, hc⟩ := List.mem_flatMap.mp hmem
    exact (hbyte b _ hc).1 rfl
  · obtain ⟨b, -, hc⟩ := List.mem_flatMap.mp hmem
    exact (hbyte b _ hc).2 rfl

lemma issueExpiry_bounds {ttl : Option ℕ} {now : ℤ} {e : Expiry} (hnow : 0 ≤ now)
    (h : issueExpiry ttl now = some e) : ∀ time ∈ e, 0 ≤ time ∧ time < clockEnd := by
  cases ttl with
  | none =>
    obtain rfl := Option.some.inj h
    intro time ht
    cases ht
  | some ttl =>
    obtain ⟨top, hadd, rfl⟩ := Option.map_eq_some_iff.mp h
    intro time ht
    obtain rfl := Option.some.inj ht
    obtain ⟨heq, hlt⟩ := checkedAdd_eq_some hadd
    exact ⟨by omega, hlt⟩

lemma load_sound {ttl : Option ℕ} {now : ℤ} (readable : Bool) (hnow : 0 ≤ now)
    (hread : ∀ t ∈ readTokens w.content, (∃ k ∈ w.known, k.value = t.value) ∧
      ∀ k ∈ w.known, k.value = t.value →
        ∃ u ∈ readTokens w.content, u.value = t.value ∧ u.expiry.ends ≤ k.expiry.ends)
    (hgone : ∀ v ∈ w.gone, (∃ k ∈ w.known, k.value = v) ∧
      ∀ t ∈ readTokens w.content, t.value ≠ v) : (w.load ttl now readable).Sound := by
  cases readable with
  | false =>
    exact ⟨Nat.zero_le _, List.nodup_nil, nofun, nofun, hread, nofun,
      fun _ => ⟨nofun, fun _ _ => nofun⟩, fun v hv => by simp [load] at hv,
      fun v hv => ⟨(hgone v hv).1, nofun, (hgone v hv).2⟩⟩
  | true =>
    have hloaded := loadTokens_loaded ttl w.content hnow
    refine ⟨hloaded.few, hloaded.tidy.nodup, hloaded.writable, fun t ht => ?_, hread,
      fun _ _ h => (by cases h), fun hnone => ⟨fun _ _ h => (by cases h), fun _ _ _ => ?_⟩,
      fun v hv => ?_, fun v hv => ?_⟩
    · obtain ⟨u, hu, hvalue⟩ := hloaded.named t ht
      obtain ⟨⟨k, hk, hsame⟩, hle⟩ := hread u hu
      refine ⟨⟨k, hk, hsame.trans hvalue⟩, fun j hj hjt => ?_⟩
      obtain ⟨v, hv, hvu, hends⟩ := hle j hj (hjt.trans hvalue.symm)
      exact (hloaded.earliest t ht v hv (hvu.trans hvalue)).trans hends
    · by_contra hne
      have hchanged : serialize (loadTokens ttl now w.content) ≠ w.content := fun heq => hne heq.symm
      rw [load, if_pos rfl] at hnone
      dsimp only at hnone
      rw [if_pos hchanged] at hnone
      cases hnone
    · exfalso
      rcases hv with hpending | ⟨data, hwriting⟩
      · rw [load, if_pos rfl] at hpending
        dsimp only at hpending
        split at hpending
        · cases List.mem_singleton.mp hpending
        · cases hpending
      · cases hwriting
    · obtain ⟨hknown, hfile⟩ := hgone v hv
      refine ⟨hknown, fun t ht heq => ?_, hfile⟩
      obtain ⟨u, hu, hvalue⟩ := hloaded.named t ht
      exact hfile u hu (hvalue.trans heq)

lemma issue_sound (h : w.Sound) {bytes : List UInt8} {expiry : Expiry} {now now' : ℤ}
    (hnow : 0 ≤ now) (hexpiry : issueExpiry w.ttl now = some expiry)
    (hnew : ∀ k ∈ w.known, k.value ≠ hex bytes) :
    Sound { w with
      tokens := Sessions.issue w.tokens { value := hex bytes, expiry } now'
      pending := none :: w.pending
      known := { value := hex bytes, expiry } :: w.known } := by
  have hsub : (Sessions.issue w.tokens { value := hex bytes, expiry } now').Sublist
      (w.tokens ++ [{ value := hex bytes, expiry }]) := trim_sublist _ _ _
  have hmem : ∀ t ∈ Sessions.issue w.tokens { value := hex bytes, expiry } now',
      t ∈ w.tokens ∨ t = { value := hex bytes, expiry } := by
    intro t ht
    exact (List.mem_append.mp (hsub.subset ht)).imp_right List.mem_singleton.mp
  have hother : ∀ v, (∃ k ∈ w.known, k.value = v) → hex bytes ≠ v := by
    rintro v ⟨k, hk, rfl⟩ heq
    exact hnew k hk heq.symm
  have hgrow : ∀ v, (∃ k ∈ w.known, k.value = v) →
      ∃ k ∈ ({ value := hex bytes, expiry } : Token) :: w.known, k.value = v := by
    rintro v ⟨k, hk, hv⟩
    exact ⟨k, List.mem_cons_of_mem _ hk, hv⟩
  refine ⟨length_trim_le _ _ _, ?_, fun t ht => ?_, fun t ht => ?_, fun t ht => ?_,
    fun data caller hwriting => ?_, fun hnone => (by cases hnone), fun v hv => ?_, fun v hv => ?_⟩
  · refine (hsub.map Token.value).nodup ?_
    rw [List.map_append, List.nodup_append]
    refine ⟨h.nodup, List.nodup_singleton _, fun a ha b hb heq => ?_⟩
    obtain ⟨t, ht, rfl⟩ := List.mem_map.mp ha
    obtain rfl := List.mem_singleton.mp hb
    exact hother _ (h.bounded t ht).1 heq.symm
  · rcases hmem t ht with ht | rfl
    · exact h.writable t ht
    · exact ⟨hex_clean bytes, issueExpiry_bounds hnow hexpiry⟩
  · rcases hmem t ht with ht | rfl
    · exact (h.bounded t ht).cons (hother _ (h.bounded t ht).1)
    · refine ⟨⟨_, List.mem_cons_self, rfl⟩, fun k hk hsame => ?_⟩
      rcases List.mem_cons.mp hk with rfl | hk
      · exact le_rfl
      · exact absurd hsame (hnew k hk)
  · obtain ⟨hknown, hle⟩ := h.read t ht
    refine ⟨hgrow _ hknown, fun k hk hsame => ?_⟩
    rcases List.mem_cons.mp hk with rfl | hk
    · exact absurd hsame (hother _ hknown)
    · exact hle k hk hsame
  · obtain ⟨ts, hdata, hshot⟩ := h.shot data caller hwriting
    refine ⟨ts, hdata, hshot.writable, fun t ht => ?_, hshot.gone, hshot.revoked⟩
    exact (hshot.bounded t ht).cons (hother _ (hshot.bounded t ht).1)
  · have hold : some v ∈ w.pending ∨ ∃ data, w.writing = some (data, some v) :=
      hv.imp_left (fun hmem => (List.mem_cons.mp hmem).resolve_left (Option.some_ne_none v))
    obtain ⟨hknown, hleft⟩ := h.owed v hold
    refine ⟨hgrow v hknown, fun t ht => ?_⟩
    rcases hmem t ht with ht | rfl
    · exact hleft t ht
    · exact hother v hknown
  · obtain ⟨hknown, hleft, hfile⟩ := h.gone v hv
    refine ⟨hgrow v hknown, fun t ht => ?_, hfile⟩
    rcases hmem t ht with ht | rfl
    · exact hleft t ht
    · exact hother v hknown

lemma left_sound (h : w.Sound) {tokens : List Token} {pending : List (Option Text)}
    (hsub : tokens.Sublist w.tokens) (hpending : pending = [] → w.pending = [] ∧ tokens = w.tokens)
    (howed : ∀ v, some v ∈ pending → some v ∈ w.pending ∨
      (∃ k ∈ w.known, k.value = v) ∧ ∀ t ∈ tokens, t.value ≠ v) :
    Sound { w with tokens, pending } := by
  refine ⟨hsub.length_le.trans h.few, h.nodup.sublist (hsub.map _),
    fun t ht => h.writable t (hsub.subset ht), fun t ht => h.bounded t (hsub.subset ht), h.read,
    fun data caller hwriting => ?_, fun hnone => ?_, fun v hv => ?_, fun v hv => ?_⟩
  · obtain ⟨ts, hdata, hshot⟩ := h.shot data caller hwriting
    exact ⟨ts, hdata, hshot.writable, hshot.bounded, hshot.gone, hshot.revoked⟩
  · obtain ⟨hold, rfl⟩ := hpending hnone
    exact h.settled hold
  · have hkeep : (∃ k ∈ w.known, k.value = v) ∧ (∀ t ∈ w.tokens, t.value ≠ v) →
        (∃ k ∈ w.known, k.value = v) ∧ ∀ t ∈ tokens, t.value ≠ v :=
      fun hv => ⟨hv.1, fun t ht => hv.2 t (hsub.subset ht)⟩
    rcases hv with hv | hwriting
    · rcases howed v hv with hv | hv
      · exact hkeep (h.owed v (.inl hv))
      · exact hv
    · exact hkeep (h.owed v (.inr hwriting))
  · obtain ⟨hknown, hleft, hfile⟩ := h.gone v hv
    exact ⟨hknown, fun t ht => hleft t (hsub.subset ht), hfile⟩

lemma revoke_sound (h : w.Sound) (value : Text) :
    Sound { w with
      tokens := (Sessions.revoke w.tokens value).1
      pending := if (Sessions.revoke w.tokens value).2 then some value :: w.pending
        else w.pending } := by
  have hsub : (Sessions.revoke w.tokens value).1.Sublist w.tokens := List.filter_sublist
  refine left_sound h hsub (fun hnone => ?_) (fun v hv => ?_)
  · split at hnone
    · cases hnone
    · rename_i hsame
      have hlen : (Sessions.revoke w.tokens value).1.length = w.tokens.length := by
        by_contra hne
        exact hsame (decide_eq_true hne)
      exact ⟨hnone, hsub.eq_of_length hlen⟩
  · split at hv
    · rename_i hremoved
      rcases List.mem_cons.mp hv with heq | hv
      · obtain rfl := Option.some.inj heq
        refine .inr ⟨?_, fun t ht => of_decide_eq_true (List.mem_filter.mp ht).2⟩
        by_contra hnone
        have hall : ∀ t ∈ w.tokens, decide (t.value ≠ v) = true := by
          intro t ht
          apply decide_eq_true
          rintro rfl
          exact hnone (h.bounded t ht).1
        have hlen : (Sessions.revoke w.tokens v).1.length = w.tokens.length :=
          congrArg List.length (List.filter_eq_self.mpr hall)
        exact of_decide_eq_true hremoved hlen
      · exact .inl hv
    · exact .inl hv

lemma isValid_sound (h : w.Sound) (value : Text) (now : ℤ) :
    Sound { w with
      pending := if (Sessions.isValid w.tokens value now).2 then none :: w.pending
        else w.pending } := by
  refine left_sound h (List.Sublist.refl _) (fun hnone => ?_) (fun v hv => .inl ?_)
  · split at hnone
    · cases hnone
    · exact ⟨hnone, rfl⟩
  · split at hv
    · exact (List.mem_cons.mp hv).resolve_left (Option.some_ne_none v)
    · exact hv

lemma snapshot_sound (h : w.Sound) {caller : Option Text} {now : ℤ}
    (hpending : caller ∈ w.pending) :
    Sound { w with
      tokens := sweep w.tokens now
      writing := some (serialize (sweep w.tokens now), caller)
      pending := w.pending.erase caller } := by
  have hsub : (sweep w.tokens now).Sublist w.tokens := List.filter_sublist
  have howed : ∀ v, some v ∈ w.pending →
      (∃ k ∈ w.known, k.value = v) ∧ ∀ t ∈ sweep w.tokens now, t.value ≠ v := by
    intro v hv
    obtain ⟨hknown, hleft⟩ := h.owed v (.inl hv)
    exact ⟨hknown, fun t ht => hleft t (hsub.subset ht)⟩
  refine ⟨hsub.length_le.trans h.few, h.nodup.sublist (hsub.map _),
    fun t ht => h.writable t (hsub.subset ht), fun t ht => h.bounded t (hsub.subset ht), h.read,
    fun data c hwriting => ?_, fun hnone => ⟨fun data c hwriting => ?_, fun hnone => ?_⟩,
    fun v hv => ?_, fun v hv => ?_⟩
  · obtain ⟨rfl, rfl⟩ := Prod.mk.inj (Option.some.inj hwriting)
    refine ⟨_, rfl, fun t ht => h.writable t (hsub.subset ht),
      fun t ht => h.bounded t (hsub.subset ht), fun t ht hgone => ?_, fun t ht heq => ?_⟩
    · exact (h.gone _ hgone).2.1 t (hsub.subset ht) rfl
    · exact (howed t.value (heq.symm ▸ hpending)).2 t ht rfl
  · exact (Prod.mk.inj (Option.some.inj hwriting)).1.symm
  · cases hnone
  · rcases hv with hv | ⟨data, hwriting⟩
    · exact howed v (List.mem_of_mem_erase hv)
    · obtain ⟨-, rfl⟩ := Prod.mk.inj (Option.some.inj hwriting)
      exact howed v hpending
  · obtain ⟨hknown, hleft, hfile⟩ := h.gone v hv
    exact ⟨hknown, fun t ht => hleft t (hsub.subset ht), hfile⟩

lemma written_sound (h : w.Sound) {data : Text} {caller : Option Text}
    (hwriting : w.writing = some (data, caller)) :
    Sound { w with
      file := some data
      writing := none
      failed := false
      unread := false
      gone := caller.toList ++ w.gone } := by
  obtain ⟨ts, rfl, hshot⟩ := h.shot data caller hwriting
  have hread : readTokens (serialize ts) = ts.map Token.truncated :=
    readTokens_serialize hshot.writable
  refine ⟨h.few, h.nodup, h.writable, h.bounded, fun t ht => ?_, fun _ _ h => (by cases h),
    fun hnone => ⟨fun _ _ h => (by cases h), fun _ _ _ => (h.settled hnone).1 _ _ hwriting⟩,
    fun v hv => h.owed v (hv.imp_right (by rintro ⟨_, h⟩; cases h)), fun v hv => ?_⟩
  · change t ∈ readTokens (serialize ts) at ht
    have hbounded : Bounded w.known t := by
      rw [hread] at ht
      obtain ⟨u, hu, rfl⟩ := List.mem_map.mp ht
      exact (hshot.bounded u hu).truncated (hshot.writable u hu)
    exact ⟨hbounded.1, fun k hk hsame => ⟨t, ht, rfl, hbounded.2 k hk hsame⟩⟩
  · have hfile : (∀ t ∈ ts, t.value ≠ v) → ∀ t ∈ readTokens (serialize ts), t.value ≠ v := by
      intro hts t ht
      rw [hread] at ht
      obtain ⟨u, hu, rfl⟩ := List.mem_map.mp ht
      exact hts u hu
    rcases List.mem_append.mp hv with hcaller | hv
    · obtain rfl := Option.mem_toList.mp hcaller
      obtain ⟨hknown, hleft⟩ := h.owed v (.inr ⟨_, hwriting⟩)
      refine ⟨hknown, hleft, hfile (fun t ht heq => ?_)⟩
      exact hshot.revoked t ht (congrArg some heq)
    · obtain ⟨hknown, hleft, -⟩ := h.gone v hv
      refine ⟨hknown, hleft, hfile (fun t ht heq => ?_)⟩
      exact hshot.gone t ht (heq.symm ▸ hv)

lemma Step.sound (h : w.Sound) (hs : Step w w') : w'.Sound := by
  cases hs with
  | issue bytes expiry now now' hnow hexpiry hnew => exact issue_sound h hnow hexpiry hnew
  | revoke value => exact revoke_sound h value
  | isValid value now => exact isValid_sound h value now
  | snapshot caller now hpending => exact snapshot_sound h hpending
  | written data caller hwriting => exact written_sound h hwriting
  | failed =>
    exact ⟨h.few, h.nodup, h.writable, h.bounded, h.read, fun _ _ h => (by cases h),
      fun _ => ⟨fun _ _ h => (by cases h), fun _ hfailed => (by cases hfailed)⟩,
      fun v hv => h.owed v (hv.imp_right (by rintro ⟨_, h⟩; cases h)), h.gone⟩
  | restart ttl now readable hnow =>
    exact load_sound readable hnow h.read (fun v hv => ⟨(h.gone v hv).1, (h.gone v hv).2.2⟩)

lemma Reaches.sound (h : Reaches w) : w.Sound := by
  induction h with
  | opened file ttl now readable hnow =>
    refine load_sound readable hnow (fun t ht => ⟨⟨t, ht, rfl⟩, fun k hk hsame => ?_⟩) (fun v hv => ?_)
    · exact ⟨k, hk, hsame, le_rfl⟩
    · cases hv
  | step _ hs ih => exact hs.sound ih

/-- A forgotten login never comes back, over any interleaving of logins, logouts, checks, writes
that succeed or fail, and restarts under any lifetime that may find the file unreadable. -/
theorem forgotten_never_returns (h : Reaches w) :
    w.tokens.length ≤ maxSessions ∧ (w.tokens.map Token.value).Nodup ∧
    (w.pending = [] → w.writing = none → w.failed = false → w.unread = false →
      w.content = serialize w.tokens) ∧
    (∀ v ∈ w.gone, (∀ t ∈ w.tokens, t.value ≠ v) ∧ ∀ t ∈ readTokens w.content, t.value ≠ v) ∧
    ∀ k ∈ w.known, ∀ t ∈ w.tokens, t.value = k.value → t.expiry.ends ≤ k.expiry.ends := by
  have hsound := h.sound
  exact ⟨hsound.few, hsound.nodup, fun hnone => (hsound.settled hnone).2,
    fun v hv => (hsound.gone v hv).2,
    fun k hk t ht hsame => (hsound.bounded t ht).2 k hk hsame.symm⟩

theorem forgotten_never_returns_logout : ∃ w, Reaches w ∧ w.gone = [hex [1]] ∧
    w.file = some (serialize [⟨hex [2], none⟩]) ∧
    (∀ v ∈ w.gone, (∀ t ∈ w.tokens, t.value ≠ v) ∧ ∀ t ∈ readTokens w.content, t.value ≠ v) := by
  have hmissing := Reaches.opened none none 0 false le_rfl
  have hfirst := hmissing.step (.issue _ [1] none 0 0 le_rfl rfl nofun)
  have hkept := (hfirst.step (.snapshot _ none 0 List.mem_cons_self rfl)).step
    (.written _ _ none rfl)
  have hsecond := hkept.step (.issue _ [2] none 1 1 (by decide) rfl (by decide))
  have hboth := (hsecond.step (.snapshot _ none 1 List.mem_cons_self rfl)).step
    (.written _ _ none rfl)
  have hout := hboth.step (.revoke _ (hex [1]))
  have hwritten := (hout.step (.snapshot _ (some (hex [1])) 2 (by decide) rfl)).step
    (.written _ _ (some (hex [1])) rfl)
  have hagain := (hwritten.step (.restart _ none 3 true (by decide))).step
    (.restart _ none 4 false (by decide))
  exact ⟨_, hagain, rfl, rfl, (forgotten_never_returns hagain).2.2.2.1⟩

end World

end Nightcrow.Web.Sessions
