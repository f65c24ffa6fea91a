import Mathlib

namespace Nightcrow.Library

variable {α : Type*}

structure Gluing (α : Type*) where
  glue : α → α → Option α
  glue_assoc : ∀ {a b ab}, glue a b = some ab → ∀ x, glue x ab = (glue x a).bind (glue · b)
  glue_chain : ∀ {x a xa b ab}, glue x a = some xa → glue a b = some ab → (glue xa b).isSome

namespace Gluing

variable (g : Gluing α)

def push (out : List α) (a : α) : List α :=
  match out.getLast? with
  | some x =>
    match g.glue x a with
    | some xa => out.dropLast ++ [xa]
    | none => out ++ [a]
  | none => [a]

def merged (xs : List α) : List α := xs.foldl g.push []

variable {g} {out xs ys zs : List α} {a b ab x xa : α}

@[simp] lemma push_nil : g.push [] a = [a] := rfl

lemma push_glued (h : g.glue x a = some xa) : g.push (out ++ [x]) a = out ++ [xa] := by
  simp [push, h]

lemma push_apart (h : g.glue x a = none) : g.push (out ++ [x]) a = out ++ [x] ++ [a] := by
  simp [push, h]

lemma push_push (h : g.glue a b = some ab) : g.push (g.push out a) b = g.push out ab := by
  rcases List.eq_nil_or_concat out with rfl | ⟨out, x, he⟩
  · rw [push_nil, push_nil]
    exact @push_glued _ g [] _ _ _ h
  · rw [List.concat_eq_append] at he
    subst he
    rcases hx : g.glue x a with _ | xa
    · rw [push_apart hx, push_glued h, push_apart]
      rw [g.glue_assoc h, hx, Option.bind_none]
    · obtain ⟨xab, hb⟩ := Option.isSome_iff_exists.mp (g.glue_chain hx h)
      rw [push_glued hx, push_glued hb, push_glued]
      rw [g.glue_assoc h, hx, Option.bind_some, hb]

lemma merged_append : g.merged (xs ++ ys) = ys.foldl g.push (g.merged xs) := List.foldl_append

lemma merged_append_congr (h : g.merged xs = g.merged ys) :
    g.merged (xs ++ zs) = g.merged (ys ++ zs) := by
  rw [merged_append, merged_append, h]

lemma merged_glued (h : g.glue a b = some ab) :
    g.merged (xs ++ [ab]) = g.merged (xs ++ [a] ++ [b]) := by
  simp only [merged_append, List.foldl_cons, List.foldl_nil]
  exact (push_push h).symm

end Gluing

end Nightcrow.Library
