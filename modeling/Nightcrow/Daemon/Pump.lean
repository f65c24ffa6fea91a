import Nightcrow.Daemon.TerminalLink
import Nightcrow.Daemon.Wire

/-! The attach client's read loop: every frame of the stream reaches its handler, in order,
exactly when no read times out inside a frame. -/

namespace Nightcrow.Daemon

open Nightcrow.Library Nightcrow.Session.Terminal
open Nightcrow.Library.Arrival (Gives)

inductive Ending
  | clean
  | stopped
  | failed (e : ReadError)
deriving DecidableEq

lemma weight_readFrame_frame {as rest : List Arrival} {f : Frame}
    (h : readFrame as = (.ok (some f), rest)) : Arrival.weight rest < Arrival.weight as := by
  have hr := readFrame_reads as
  rw [h] at hr
  cases hr with
  | frame hg _ =>
    have := hg.weight_le
    rw [Frame.encode_length] at this
    omega

lemma weight_readFrame_timedOut {as rest : List Arrival} {e : ReadError}
    (h : readFrame as = (.error e, rest)) (he : e.timedOut = true) :
    Arrival.weight rest < Arrival.weight as := by
  have hr := readFrame_reads as
  rw [h] at hr
  cases hr with
  | failed hg _ _ =>
    have := hg.weight_le
    simp only [Arrival.weight] at this
    omega
  | ended _ _ _ hn => simp [hn] at he
  | alien _ _ hn => simp [hn] at he

section pumping

variable {σ : Type} (route : σ → Frame → σ × Bool)

def pump (s : σ) (as : List Arrival) : σ × Ending :=
  match _h : readFrame as with
  | (.ok none, _) => (s, .clean)
  | (.ok (some f), rest) =>
    match route s f with
    | (s, true) => pump s rest
    | (s, false) => (s, .stopped)
  | (.error e, rest) => if _ht : e.timedOut = true then pump s rest else (s, .failed e)
termination_by Arrival.weight as
decreasing_by
  · exact weight_readFrame_frame _h
  · exact weight_readFrame_timedOut _h _ht

def deliverAll (s : σ) : List Frame → Ending → σ × Ending
  | [], ending => (s, ending)
  | f :: frames, ending =>
    match route s f with
    | (s, true) => deliverAll s frames ending
    | (s, false) => (s, .stopped)

variable {route} {s : σ} {as rest : List Arrival}

lemma pump_clean (h : readFrame as = (.ok none, rest)) : pump route s as = (s, .clean) := by
  rw [pump]
  split <;> rename_i h' <;> cases h.symm.trans h'
  rfl

lemma pump_frame {f : Frame} (h : readFrame as = (.ok (some f), rest)) :
    pump route s as =
      match route s f with
      | (s, true) => pump route s rest
      | (s, false) => (s, .stopped) := by
  rw [pump]
  split <;> rename_i h' <;> cases h.symm.trans h'
  rfl

lemma pump_error {e : ReadError} (h : readFrame as = (.error e, rest)) :
    pump route s as = if e.timedOut = true then pump route s rest else (s, .failed e) := by
  rw [pump]
  split <;> rename_i h' <;> cases h.symm.trans h'
  rfl

end pumping

section boundaries

/-- Every read that times out does so where the bytes before it are whole frames. -/
def TimesOutBetween (frames : List Frame) (as : List Arrival) : Prop :=
  ∀ before kind after, as = before ++ .failed kind :: after →
    (ReadError.io kind).timedOut = true →
    ∃ done, done <+: frames ∧ Arrival.data before = wire done

def OnlyTimesOut (as : List Arrival) : Prop :=
  ∀ kind, .failed kind ∈ as → kind = .interrupted ∨ (ReadError.io kind).timedOut = true

def CutShort (part : List UInt8) : Prop :=
  ∃ f : Frame, f.Bounded ∧ part <+: f.encode ∧ part.length < f.encode.length

variable {frames : List Frame} {f : Frame} {as as' : List Arrival} {kind : IoErrorKind}
  {lost part : List UInt8}

lemma TimesOutBetween.tail (h : TimesOutBetween (f :: frames) as) (hg : Gives as f.encode as') :
    TimesOutBetween frames as' := by
  intro before' kind after he ht
  obtain ⟨before, hb, hd⟩ := hg.unsplit he
  obtain ⟨done, hp, hw⟩ := h before kind after hb ht
  rw [hd] at hw
  cases done with
  | nil =>
    have := congrArg List.length hw
    simp at this
  | cons g done =>
    obtain ⟨rfl, hp'⟩ := List.cons_prefix_cons.mp hp
    exact ⟨done, hp', by simpa using hw⟩

lemma TimesOutBetween.cons (h : TimesOutBetween frames as') (hg : Gives as f.encode as') :
    TimesOutBetween (f :: frames) as := by
  intro before kind after he ht
  have hk : kind ≠ .interrupted := by
    rintro rfl
    cases ht
  obtain ⟨before', hb, hd⟩ := hg.split hk he
  obtain ⟨done, hp, hw⟩ := h before' kind after hb ht
  exact ⟨f :: done, List.cons_prefix_cons.mpr ⟨rfl, hp⟩, by rw [hd, hw, wire_cons]⟩

lemma TimesOutBetween.skip (h : TimesOutBetween frames as)
    (hg : Gives as [] (.failed kind :: as')) : TimesOutBetween frames as' := by
  intro before' kind' after he ht
  have hsplit : Arrival.failed kind :: as' =
      (.failed kind :: before') ++ .failed kind' :: after := congrArg _ he
  obtain ⟨before, hb, hd⟩ := hg.unsplit hsplit
  obtain ⟨done, hp, hw⟩ := h before kind' after hb ht
  exact ⟨done, hp, by rw [← hw, hd]; rfl⟩

lemma TimesOutBetween.unskip (h : TimesOutBetween frames as')
    (hg : Gives as [] (.failed kind :: as')) : TimesOutBetween frames as := by
  intro before kind' after he ht
  have hk : kind' ≠ .interrupted := by
    rintro rfl
    cases ht
  obtain ⟨before', hb, hd⟩ := hg.split hk he
  cases before' with
  | nil => exact ⟨[], List.nil_prefix, hd⟩
  | cons a before' =>
    rw [List.cons_append, List.cons.injEq] at hb
    obtain ⟨rfl, hb⟩ := hb
    obtain ⟨done, hp, hw⟩ := h before' kind' after hb ht
    exact ⟨done, hp, hd.trans hw⟩

lemma TimesOutBetween.lost_nil (h : TimesOutBetween frames as) (hf : ∀ f ∈ frames, f.Bounded)
    (hg : Gives as lost (.failed kind :: as')) (ht : (ReadError.io kind).timedOut = true)
    (hi : Inside lost) : lost = [] := by
  have hsplit : Arrival.failed kind :: as' = [] ++ .failed kind :: as' := rfl
  obtain ⟨before, hb, hd⟩ := hg.unsplit hsplit
  obtain ⟨done, hp, hw⟩ := h before kind as' hb ht
  rw [hd, Arrival.data_nil, List.append_nil] at hw
  cases done with
  | nil => exact hw
  | cons g done =>
    have hl := hi g (hf g (hp.subset List.mem_cons_self)) [] (wire done) (by rw [hw]; simp)
    rw [hw, wire_cons, List.length_append] at hl
    omega

lemma OnlyTimesOut.of_gives (h : OnlyTimesOut as) (hg : Gives as lost as') : OnlyTimesOut as' := by
  intro kind hm
  obtain ⟨before', after, he⟩ := List.append_of_mem hm
  obtain ⟨before, hb, -⟩ := hg.unsplit he
  exact h kind (by rw [hb]; simp)

lemma CutShort.not_frame (h : CutShort part) (hf : f.Bounded) (xs : List UInt8) :
    part ≠ f.encode ++ xs := by
  rintro rfl
  obtain ⟨g, hg, ⟨ys, hp⟩, hl⟩ := h
  rw [List.append_assoc] at hp
  obtain ⟨rfl, -⟩ := Frame.encode_append_inj hf hg (hp.trans (List.append_nil _).symm)
  rw [List.length_append] at hl
  omega

lemma wire_append_frame {rest : List UInt8} (hf : f.Bounded) (hfs : ∀ f ∈ frames, f.Bounded)
    (hp : CutShort part) (he : f.encode ++ rest = wire frames ++ part) :
    ∃ gs, frames = f :: gs ∧ rest = wire gs ++ part := by
  cases frames with
  | nil => exact absurd he.symm (hp.not_frame hf rest)
  | cons g gs =>
    rw [wire_cons, List.append_assoc] at he
    obtain ⟨rfl, hr⟩ := Frame.encode_append_inj hf (hfs g List.mem_cons_self) he
    exact ⟨gs, rfl, hr⟩

def EndsAfter (part : List UInt8) (ending : Ending) : Prop :=
  part = [] ∧ ending = .clean ∨ part ≠ [] ∧ ∃ e, ending = .failed e ∧ e.timedOut = false

end boundaries

section round

variable {σ : Type} (route : σ → Frame → σ × Bool)

lemma pump_delivers (s : σ) {frames : List Frame} {as : List Arrival} {part : List UInt8}
    (hf : ∀ f ∈ frames, f.Bounded) (ho : OnlyTimesOut as) (hp : CutShort part)
    (hd : Arrival.data as = wire frames ++ part) (hb : TimesOutBetween frames as) :
    ∃ ending, EndsAfter part ending ∧ pump route s as = deliverAll route s frames ending := by
  induction hw : Arrival.weight as using Nat.strong_induction_on
    generalizing as frames s with
  | h size ih =>
    subst hw
    have hr := readFrame_reads as
    rcases hread : readFrame as with ⟨r, rest⟩
    rw [hread] at hr
    cases hr with
    | clean hg =>
      rw [hg.data_eq, List.nil_append, Arrival.data_nil, eq_comm, List.append_eq_nil_iff] at hd
      obtain ⟨hfs, rfl⟩ := hd
      cases frames with
      | nil => exact ⟨.clean, Or.inl ⟨rfl, rfl⟩, pump_clean hread⟩
      | cons g gs => simp [Frame.encode, Frame.header] at hfs
    | @frame f _ hg hbf =>
      rw [hg.data_eq] at hd
      obtain ⟨gs, rfl, hrest⟩ := wire_append_frame hbf hf hp hd
      have hlt := weight_readFrame_frame hread
      rw [pump_frame hread]
      simp only [deliverAll]
      rcases hroute : route s f with ⟨s', _ | _⟩
      · obtain ⟨ending, he, -⟩ := ih _ hlt s (fun g hm => hf g (List.mem_cons_of_mem f hm))
          (ho.of_gives hg) hrest (hb.tail hg) rfl
        exact ⟨ending, he, rfl⟩
      · exact ih _ hlt s' (fun g hm => hf g (List.mem_cons_of_mem f hm))
          (ho.of_gives hg) hrest (hb.tail hg) rfl
    | @failed lost kind _ hg hk hi =>
      have hm : OnlyTimesOut (.failed kind :: rest) := ho.of_gives hg
      have ht : (ReadError.io kind).timedOut = true :=
        (hm kind List.mem_cons_self).resolve_left hk
      obtain rfl := hb.lost_nil hf hg ht hi
      rw [pump_error hread, if_pos ht]
      refine ih _ (weight_readFrame_timedOut hread ht) s hf ?_ ?_ (hb.skip hg) rfl
      · exact fun j hj => hm j (List.mem_cons_of_mem _ hj)
      · rw [← hd, hg.data_eq]
        rfl
    | @ended lost e hg hn hi ht =>
      rw [hg.data_eq, Arrival.data_nil, List.append_nil] at hd
      rw [pump_error hread, if_neg (by simp [ht])]
      cases frames with
      | nil =>
        obtain rfl : lost = part := hd
        exact ⟨.failed e, Or.inr ⟨hn, e, rfl, ht⟩, rfl⟩
      | cons g gs =>
        rw [wire_cons, List.append_assoc] at hd
        have hl := hi g (hf g List.mem_cons_self) [] (wire gs ++ part) (by rw [hd]; simp)
        rw [hd, List.length_append] at hl
        omega
    | @alien header e _ hg ha ht =>
      rw [hg.data_eq] at hd
      rw [pump_error hread, if_neg (by simp [ht])]
      cases frames with
      | nil =>
        obtain ⟨g, hbg, ⟨more, hmore⟩, hl⟩ := hp
        refine absurd ?_ (ha g hbg (Arrival.data rest ++ more) [])
        rw [List.append_nil, ← hmore, ← List.append_assoc, hd]
        rfl
      | cons g gs =>
        rw [wire_cons, List.append_assoc] at hd
        exact absurd hd (ha g (hf g List.mem_cons_self) _ _)

lemma pump_whole (s : σ) {frames : List Frame} {as : List Arrival} (hf : ∀ f ∈ frames, f.Bounded)
    (ho : OnlyTimesOut as) (hd : Arrival.data as = wire frames)
    (hb : TimesOutBetween frames as) : pump route s as = deliverAll route s frames .clean := by
  have hempty : CutShort [] := ⟨⟨.control, []⟩, by decide, List.nil_prefix, by decide⟩
  obtain ⟨ending, he, h⟩ := pump_delivers route s hf ho hempty
    (hd.trans (List.append_nil _).symm) hb
  rcases he with ⟨-, rfl⟩ | ⟨hn, -⟩
  · exact h
  · exact absurd rfl hn

def record (frames : List Frame) (f : Frame) : List Frame × Bool := (frames ++ [f], true)

lemma deliverAll_record (s frames : List Frame) (ending : Ending) :
    deliverAll record s frames ending = (s ++ frames, ending) := by
  induction frames generalizing s with
  | nil => simp [deliverAll]
  | cons f frames ih =>
    simp only [deliverAll, record]
    rw [ih]
    simp

/-- A pump that ends cleanly lost the bytes the frames it delivered do not account for, and
lost none only when no read timed out inside a frame. -/
lemma pump_record {s t : List Frame} {as : List Arrival} (h : pump record s as = (t, .clean)) :
    ∃ frames, t = s ++ frames ∧ (wire frames).length ≤ (Arrival.data as).length ∧
      ((Arrival.data as).length ≤ (wire frames).length → TimesOutBetween frames as) := by
  induction hw : Arrival.weight as using Nat.strong_induction_on generalizing as s with
  | h size ih =>
    subst hw
    have hr := readFrame_reads as
    rcases hread : readFrame as with ⟨r, rest⟩
    rw [hread] at hr
    cases hr with
    | clean hg =>
      rw [pump_clean hread] at h
      cases h
      refine ⟨[], (List.append_nil _).symm, Nat.zero_le _, fun _ => ?_⟩
      intro before kind after he ht
      have hk : kind ≠ .interrupted := by
        rintro rfl
        cases ht
      obtain ⟨before', hn, -⟩ := hg.split hk he
      exact absurd hn.symm (List.append_ne_nil_of_right_ne_nil _ (List.cons_ne_nil _ _))
    | @frame f _ hg hbf =>
      rw [pump_frame hread] at h
      obtain ⟨frames, rfl, hle, hb⟩ := ih _ (weight_readFrame_frame hread) h rfl
      refine ⟨f :: frames, by simp, ?_, ?_⟩
      · rw [hg.data_eq, wire_cons, List.length_append, List.length_append]
        omega
      · intro hlt
        rw [hg.data_eq, wire_cons, List.length_append, List.length_append] at hlt
        exact (hb (by omega)).cons hg
    | @failed lost kind _ hg hk hi =>
      rw [pump_error hread] at h
      by_cases ht : (ReadError.io kind).timedOut = true
      · rw [if_pos ht] at h
        obtain ⟨frames, rfl, hle, hb⟩ := ih _ (weight_readFrame_timedOut hread ht) h rfl
        have hd : Arrival.data as = lost ++ Arrival.data rest := hg.data_eq
        refine ⟨frames, rfl, ?_, fun hlt => ?_⟩
        · rw [hd, List.length_append]
          omega
        · rw [hd, List.length_append] at hlt
          obtain rfl : lost = [] := List.eq_nil_of_length_eq_zero (by omega)
          exact (hb (by omega)).unskip hg
      · rw [if_neg ht] at h
        cases h
    | ended _ _ _ ht =>
      rw [pump_error hread, if_neg (by simp [ht])] at h
      cases h
    | alien _ _ ht =>
      rw [pump_error hread, if_neg (by simp [ht])] at h
      cases h

/-- The stream reaches every handler as exactly these frames and then its end, and every cut of
it inside a frame as the whole frames before the cut and then an error. -/
def Intact (frames : List Frame) (as : List Arrival) : Prop :=
  ∀ (σ : Type) (route : σ → Frame → σ × Bool) (s : σ),
    pump route s as = deliverAll route s frames .clean ∧
    ∀ cut after done f part, as = cut ++ after → done ++ [f] <+: frames →
      Arrival.data cut = wire done ++ part → part <+: f.encode → part ≠ [] → part ≠ f.encode →
      ∃ e, e.timedOut = false ∧ pump route s cut = deliverAll route s done (.failed e)

lemma TimesOutBetween.of_cut {frames done : List Frame} {as cut after : List Arrival} {f : Frame}
    {part : List UInt8} (h : TimesOutBetween frames as) (hf : ∀ f ∈ frames, f.Bounded)
    (hc : as = cut ++ after) (hp : done ++ [f] <+: frames) (hpart : CutShort part)
    (hd : Arrival.data cut = wire done ++ part) : TimesOutBetween done cut := by
  intro before kind rest he ht
  obtain ⟨whole, hw, hwire⟩ := h before kind (rest ++ after) (by rw [hc, he]; simp) ht
  have hdone : done <+: frames := (List.prefix_append done [f]).trans hp
  rcases List.prefix_or_prefix_of_prefix hw hdone with hle | hle
  · exact ⟨whole, hle, hwire⟩
  · obtain ⟨more, rfl⟩ := hle
    cases more with
    | nil => exact ⟨done, List.prefix_refl done, by simpa using hwire⟩
    | cons g more =>
      have hg : g.Bounded := hf g (hw.subset (by simp))
      rw [he, Arrival.data_append, hwire] at hd
      simp only [wire, List.flatMap_append, List.flatMap_cons, List.append_assoc,
        List.append_cancel_left_eq] at hd
      exact absurd hd.symm (hpart.not_frame hg _)

theorem stream_round_trip (frames : List Frame) (hf : ∀ f ∈ frames, f.Bounded) :
    (∀ w : Writer,
      ∃ v, writeFrames w frames = (.ok (), v) ∧ v.written = w.written ++ wire frames) ∧
    ∀ as : List Arrival, OnlyTimesOut as →
      Arrival.data as = wire frames → (Intact frames as ↔ TimesOutBetween frames as) := by
  refine ⟨fun w => writeFrames_written w hf, ?_⟩
  intro as ho hd
  constructor
  · intro hi
    have h := (hi (List Frame) record []).1
    rw [deliverAll_record] at h
    obtain ⟨delivered, he, -, hb⟩ := pump_record h
    obtain rfl : frames = delivered := by simpa using he
    exact hb (by rw [hd])
  · intro hb σ route s
    refine ⟨pump_whole route s hf ho hd hb, ?_⟩
    intro cut after done f part hc hp hdata hpre hn hne
    have hpart : CutShort part := by
      refine ⟨f, hf f (hp.subset (by simp)), hpre, ?_⟩
      exact lt_of_le_of_ne hpre.length_le fun hl => hne (hpre.eq_of_length hl)
    have hfd : ∀ g ∈ done, g.Bounded := fun g hg => hf g (hp.subset (List.mem_append_left _ hg))
    have hoc : OnlyTimesOut cut := fun kind hk => ho kind (hc ▸ List.mem_append_left _ hk)
    obtain ⟨ending, he, h⟩ :=
      pump_delivers route s hfd hoc hpart hdata (hb.of_cut hf hc hp hpart hdata)
    rcases he with ⟨he, -⟩ | ⟨-, e, rfl, ht⟩
    · exact absurd he hn
    · exact ⟨e, ht, h⟩

theorem stream_round_trip_idle :
    (∃ v, writeFrames { schedule := [.interrupted, .accept 1] } [⟨.control, [65]⟩] = (.ok (), v) ∧
      v.written = [1, 0, 0, 0, 1, 65]) ∧
    Intact [⟨.control, [65]⟩]
      [.failed .timedOut, .bytes 1 [0], .failed .interrupted, .bytes 0 [0, 1, 65]] := by
  refine ⟨(stream_round_trip [⟨.control, [65]⟩] (by decide)).1 _, ?_⟩
  refine ((stream_round_trip _ (by decide)).2 _ ?_ rfl).mpr ?_
  · intro kind hk
    simp only [List.mem_cons, Arrival.failed.injEq, List.not_mem_nil, or_false, reduceCtorEq,
      false_or] at hk
    rcases hk with rfl | rfl
    · exact Or.inr rfl
    · exact Or.inl rfl
  · intro before kind after he ht
    match before with
    | [] => exact ⟨[], List.nil_prefix, rfl⟩
    | [_] => cases he
    | [_, _] =>
      cases he
      cases ht
    | [_, _, _] => cases he
    | _ :: _ :: _ :: _ :: _ =>
      rw [List.cons_append, List.cons_append, List.cons_append, List.cons_append] at he
      have := congrArg List.length he
      simp at this

/-- A wait that runs out between the second and the third byte of a header drops those two. -/
theorem stream_cut_by_timeout :
    Arrival.data [.bytes 1 [0], .failed .timedOut, .bytes 0 [0, 1, 65]] =
      wire [⟨.control, [65]⟩] ∧
    pump record [] [.bytes 1 [0], .failed .timedOut, .bytes 0 [0, 1, 65]] =
      ([], .failed (.ended 4 5)) ∧
    ¬ Intact [⟨.control, [65]⟩] [.bytes 1 [0], .failed .timedOut, .bytes 0 [0, 1, 65]] := by
  have h₁ : readFrame [.bytes 1 [0], .failed .timedOut, .bytes 0 [0, 1, 65]] =
      (.error (.io .timedOut), [.bytes 0 [0, 1, 65]]) := by
    simp [readFrame, readExactOrEof, fill_bytes, fill_failed]
  have h₂ : readFrame [.bytes 0 [0, 1, 65]] = (.error (.ended 4 5), []) := by
    simp [readFrame, readExactOrEof, fill_bytes, fill_nil]
  have hp : pump record [] [.bytes 1 [0], .failed .timedOut, .bytes 0 [0, 1, 65]] =
      ([], .failed (.ended 4 5)) := by
    have ht : (ReadError.io .timedOut).timedOut = true := rfl
    rw [pump_error h₁, if_pos ht, pump_error h₂]
    rfl
  refine ⟨rfl, hp, fun hi => ?_⟩
  have h := (hi (List Frame) record []).1
  rw [hp, deliverAll_record] at h
  cases h

end round

section attached

structure TerminalOutput where
  repo : String
  pane : PaneId
  data : List UInt8

def TerminalOutput.decode : List UInt8 → Option TerminalOutput
  | [] => none
  | len :: rest =>
    if rest.length < len.toNat + 4 then none
    else
      (String.fromUTF8? ⟨(rest.take len.toNat).toArray⟩).map fun repo =>
        { repo
          pane := fromBeBytes (rest.getD (len.toNat + 3) 0) (rest.getD (len.toNat + 2) 0)
            (rest.getD (len.toNat + 1) 0) (rest.getD len.toNat 0)
          data := rest.drop (len.toNat + 4) }

inductive DaemonMessage (M : Type)
  | terminal (repo : String) (event : ServerMessage)
  | other (message : M)

structure Attached (M : Type) where
  router : TerminalRouter := {}
  queue : List (DaemonMessage M) := []
  receiving : Bool := true

variable {M : Type}

namespace Attached

def file (c : Attached M) (repo : String) (message : TerminalMessage) : Attached M × Bool :=
  match c.router.deliver repo message with
  | some (.ok (), router) => ({ c with router }, true)
  | some (.error _, router) => ({ c with router }, false)
  | none => (c, false)

def send (c : Attached M) (message : DaemonMessage M) : Attached M × Bool :=
  if c.receiving then ({ c with queue := c.queue ++ [message] }, true) else (c, false)

def readRouted (decode : List UInt8 → Option (DaemonMessage M)) (c : Attached M) (f : Frame) :
    Attached M × Bool :=
  -- `decode` reads the JSON of a control frame
  match f.kind with
  | .terminal =>
    match TerminalOutput.decode f.payload with
    | some output => c.file output.repo (.output output.pane output.data)
    | none => (c, false)
  | .control =>
    match decode f.payload with
    | some (.terminal repo (.error text)) => c.send (.terminal repo (.error text))
    | some (.terminal repo event) => c.file repo (.event event)
    | some (.other message) => c.send (.other message)
    | none => (c, false)

end Attached

end attached

end Nightcrow.Daemon
