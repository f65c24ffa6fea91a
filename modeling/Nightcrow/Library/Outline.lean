import Mathlib

namespace Nightcrow.Library.Outline

variable {N : Type*}

structure Row (N : Type*) where
  name : N
  depth : ℕ
  expanded : Bool
  deriving DecidableEq

abbrev Place (N : Type*) := Row N × List N

/-- The listing of the names below a path, in pre-order: what a row's directory holds follows it
where it is expanded, and only there. -/
inductive Lists (ls : List N → List N) : List N → List N → List (Place N) → Prop
  | nil {path} : Lists ls path [] []
  | collapsed {path name names rows} : Lists ls path names rows →
      Lists ls path (name :: names) ((⟨name, path.length, false⟩, path ++ [name]) :: rows)
  | expanded {path name names below rows} :
      Lists ls (path ++ [name]) (ls (path ++ [name])) below → Lists ls path names rows →
      Lists ls path (name :: names)
        ((⟨name, path.length, true⟩, path ++ [name]) :: (below ++ rows))

def Opens (ls : List N → List N) (path : List N) : Bool → List (Place N) → Prop
  | false, below => below = []
  | true, below => Lists ls path (ls path) below

def leaves (path names : List N) : List (Place N) :=
  names.map (fun name => (⟨name, path.length, false⟩, path ++ [name]))

variable {ls : List N → List N} {path names q p : List N} {rows pre post : List (Place N)}
  {row : Row N} {x : Place N} {n : N}

namespace Lists

lemma leaves (path names : List N) : Lists ls path names (leaves path names) := by
  induction names with
  | nil => exact nil
  | cons name names ih => exact collapsed ih

lemma place (h : Lists ls path names rows) (hx : x ∈ rows) :
    path <+: x.2 ∧ path.length ≤ x.1.depth ∧ x.2.length = x.1.depth + 1 := by
  induction h with
  | nil => cases hx
  | @collapsed path name _ _ _ ih =>
    rcases List.mem_cons.mp hx with rfl | hx
    · exact ⟨List.prefix_append _ _, le_rfl, by simp⟩
    · exact ih hx
  | @expanded path name _ _ _ _ _ ihbelow ih =>
    rcases List.mem_cons.mp hx with rfl | hx
    · exact ⟨List.prefix_append _ _, le_rfl, by simp⟩
    · rcases List.mem_append.mp hx with hx | hx
      · obtain ⟨hpre, hdepth, hlen⟩ := ihbelow hx
        rw [List.length_append, List.length_singleton] at hdepth
        exact ⟨(List.prefix_append _ _).trans hpre, by omega, hlen⟩
      · exact ih hx

lemma dropWhile_self (h : Lists ls path names rows) {d : ℕ} (hd : path.length ≤ d) :
    rows.dropWhile (fun x => d < x.1.depth) = rows := by
  cases h with
  | nil => rfl
  | collapsed => exact List.dropWhile_cons_of_neg (by simpa using hd)
  | expanded => exact List.dropWhile_cons_of_neg (by simpa using hd)

end Lists

lemma Opens.dropWhile (h : Opens ls q row.expanded rows) (hq : q.length = row.depth + 1)
    (hpost : post.dropWhile (fun x => row.depth < x.1.depth) = post) :
    (rows ++ post).dropWhile (fun x => row.depth < x.1.depth) = post := by
  rw [List.dropWhile_append_of_pos, hpost]
  intro x hx
  cases he : row.expanded with
  | false =>
    rw [he] at h
    rw [show rows = [] from h] at hx
    cases hx
  | true =>
    rw [he] at h
    have hdepth := (Lists.place h hx).2.1
    exact decide_eq_true (by omega)

lemma split_cons {α : Type*} {x : α} {pre post l m : List α} (h : pre ++ x :: post = l ++ m) :
    (∃ as, l = pre ++ x :: as ∧ post = as ++ m) ∨ ∃ bs, pre = l ++ bs ∧ m = bs ++ x :: post := by
  rcases List.append_eq_append_iff.mp h with ⟨as, hl, hpost⟩ | ⟨bs, hpre, hm⟩
  · cases as with
    | nil => exact .inr ⟨[], by rw [hl, List.append_nil, List.append_nil], hpost.symm⟩
    | cons y as =>
      obtain ⟨rfl, rfl⟩ := List.cons_eq_cons.mp hpost
      exact .inl ⟨as, hl, rfl⟩
  · exact .inr ⟨bs, hpre, hm⟩

lemma dropWhile_append_self {α : Type*} {f : α → Bool} {l m : List α} (h : m.dropWhile f = m) :
    (l ++ m).dropWhile f = l.dropWhile f ++ m := by
  rw [List.dropWhile_append]
  split_ifs with hl
  · rw [List.isEmpty_iff.mp hl, h]
    rfl
  · rfl

/-- A row of a listing, what follows it as its own, and the rows after: the row can be opened or
closed where it stands. -/
lemma Lists.replace (h : Lists ls path names (pre ++ (row, q) :: post)) :
    ∃ below rest, post = below ++ rest ∧ Opens ls q row.expanded below ∧
      rest.dropWhile (fun x => row.depth < x.1.depth) = rest ∧
      ∀ e below', Opens ls q e below' →
        Lists ls path names (pre ++ ({ row with expanded := e }, q) :: (below' ++ rest)) := by
  generalize hall : pre ++ (row, q) :: post = all at h
  induction h generalizing pre post with
  | nil => exact absurd hall (by simp)
  | @collapsed path name names rows hrows ih =>
    cases pre with
    | nil =>
      obtain ⟨hhead, rfl⟩ := List.cons_eq_cons.mp hall
      obtain ⟨rfl, rfl⟩ := Prod.mk.inj hhead
      refine ⟨[], post, rfl, rfl, hrows.dropWhile_self le_rfl, fun e below' hb => ?_⟩
      cases e with
      | false =>
        obtain rfl := hb
        exact collapsed hrows
      | true => exact expanded hb hrows
    | cons y pre =>
      obtain ⟨rfl, htail⟩ := List.cons_eq_cons.mp hall
      obtain ⟨below, rest, hpost, hopens, hrest, hreplace⟩ := ih htail
      exact ⟨below, rest, hpost, hopens, hrest, fun e below' hb => collapsed (hreplace e below' hb)⟩
  | @expanded path name names below rows hbelow hrows ihbelow ih =>
    cases pre with
    | nil =>
      obtain ⟨hhead, rfl⟩ := List.cons_eq_cons.mp hall
      obtain ⟨rfl, rfl⟩ := Prod.mk.inj hhead
      refine ⟨below, rows, rfl, hbelow, hrows.dropWhile_self le_rfl, fun e below' hb => ?_⟩
      cases e with
      | false =>
        obtain rfl := hb
        exact collapsed hrows
      | true => exact expanded hb hrows
    | cons y pre =>
      obtain ⟨rfl, htail⟩ := List.cons_eq_cons.mp hall
      rcases split_cons htail with ⟨as, hbelow', rfl⟩ | ⟨bs, rfl, hrows'⟩
      · obtain ⟨below', rest, rfl, hopens, hrest, hreplace⟩ := ihbelow hbelow'.symm
        refine ⟨below', rest ++ rows, List.append_assoc _ _ _, hopens, ?_, fun e below'' hb => ?_⟩
        · have hdeep : path.length ≤ row.depth := by
            have hplace := hbelow.place (x := (row, q)) (by rw [hbelow']; simp)
            have hlen := hplace.2.1
            rw [List.length_append] at hlen
            exact (Nat.le_add_right _ _).trans hlen
          rw [dropWhile_append_self (hrows.dropWhile_self hdeep), hrest]
        · have hlists := expanded (hreplace e below'' hb) hrows
          simpa using hlists
      · obtain ⟨below', rest, hpost, hopens, hrest, hreplace⟩ := ih hrows'.symm
        refine ⟨below', rest, hpost, hopens, hrest, fun e below'' hb => ?_⟩
        have hlists := expanded hbelow (hreplace e below'' hb)
        simpa using hlists

lemma Lists.along (h : Lists ls path names rows) (hnames : ∀ m ∈ names, m ∈ ls path)
    (hx : x ∈ rows) (hp : path <+: p) (hn : p ++ [n] <+: x.2) : n ∈ ls p := by
  have hhere : ∀ {path p q : List N} {name : N}, path <+: p → p ++ [n] <+: q →
      path ++ [name] <+: q → (p = path ∧ n = name) ∨ path ++ [name] <+: p := by
    intro path p q name hp hn hq
    rcases List.prefix_or_prefix_of_prefix hq hn with hle | hle
    · rcases List.prefix_concat_iff.mp hle with heq | hle
      · obtain ⟨rfl, hlast⟩ := List.append_inj' heq rfl
        exact .inl ⟨rfl, (List.singleton_inj.mp hlast).symm⟩
      · exact .inr hle
    · obtain ⟨t, rfl⟩ := hp
      have hlen := hle.length_le
      simp only [List.length_append, List.length_singleton] at hlen
      obtain rfl : t = [] := List.eq_nil_of_length_eq_zero (by omega)
      rw [List.append_nil] at hle ⊢
      obtain ⟨-, hlast⟩ := List.append_inj' (hle.eq_of_length (by simp)) rfl
      exact .inl ⟨rfl, List.singleton_inj.mp hlast⟩
  induction h with
  | nil => cases hx
  | @collapsed path name names rows _ ih =>
    rcases List.mem_cons.mp hx with rfl | hx
    · rcases hhere hp hn (List.prefix_refl _) with ⟨rfl, rfl⟩ | hlong
      · exact hnames _ List.mem_cons_self
      · have hlen := (hlong.trans ((List.prefix_append p [n]).trans hn)).length_le
        have hlen' := hn.length_le
        have := hlong.length_le
        simp only [List.length_append, List.length_singleton] at hlen hlen' this
        omega
    · exact ih (fun m hm => hnames m (List.mem_cons_of_mem _ hm)) hx hp
  | @expanded path name names below rows hbelow _ ihbelow ih =>
    rcases List.mem_cons.mp hx with rfl | hx
    · rcases hhere hp hn (List.prefix_refl _) with ⟨rfl, rfl⟩ | hlong
      · exact hnames _ List.mem_cons_self
      · have hlong := hlong.length_le
        have hshort := hn.length_le
        simp only [List.length_append, List.length_singleton] at hlong hshort
        omega
    · rcases List.mem_append.mp hx with hx | hx
      · rcases hhere hp hn (hbelow.place hx).1 with ⟨rfl, rfl⟩ | hlong
        · exact hnames _ List.mem_cons_self
        · exact ihbelow (fun m hm => hm) hx hlong
      · exact ih (fun m hm => hnames m (List.mem_cons_of_mem _ hm)) hx hp

def climb : ℕ → List (Row N) → List N
  | 0, _ => []
  | _ + 1, [] => []
  | n + 1, row :: rows => if row.depth = n then row.name :: climb n rows else climb (n + 1) rows

lemma climb_zero (rows : List (Row N)) : climb 0 rows = [] := by
  cases rows <;> rfl

lemma climb_deep {d : ℕ} {rows : List (Row N)} (h : ∀ r ∈ rows, d ≤ r.depth)
    (above : List (Row N)) : climb d (rows ++ above) = climb d above := by
  cases d with
  | zero => rw [climb_zero, climb_zero]
  | succ d =>
    induction rows with
    | nil => rfl
    | cons r rows ih =>
      obtain ⟨hr, hrows⟩ := List.forall_mem_cons.mp h
      rw [List.cons_append, climb, if_neg (by omega), ih hrows]

lemma drop_prefixed (h : path ++ [n] <+: q) :
    q.drop path.length = n :: q.drop (path.length + 1) := by
  obtain ⟨t, rfl⟩ := h
  simp

lemma Lists.climb (h : Lists ls path names (pre ++ (row, q) :: post)) (above : List (Row N)) :
    climb q.length (row :: ((pre.map Prod.fst).reverse ++ above)) =
      (q.drop path.length).reverse ++ climb path.length above := by
  generalize hall : pre ++ (row, q) :: post = all at h
  induction h generalizing pre post above with
  | nil => exact absurd hall (by simp)
  | @collapsed path name names rows hrows ih =>
    cases pre with
    | nil =>
      obtain ⟨hhead, -⟩ := List.cons_eq_cons.mp hall
      obtain ⟨rfl, rfl⟩ := Prod.mk.inj hhead
      simp [Outline.climb]
    | cons y pre =>
      obtain ⟨rfl, htail⟩ := List.cons_eq_cons.mp hall
      have hhere : ∀ r ∈ [(⟨name, path.length, false⟩ : Row N)], path.length ≤ r.depth :=
        List.forall_mem_singleton.mpr le_rfl
      have hup := ih ([⟨name, path.length, false⟩] ++ above) htail
      rw [climb_deep hhere] at hup
      simpa using hup
  | @expanded path name names below rows hbelow hrows ihbelow ih =>
    cases pre with
    | nil =>
      obtain ⟨hhead, -⟩ := List.cons_eq_cons.mp hall
      obtain ⟨rfl, rfl⟩ := Prod.mk.inj hhead
      simp [Outline.climb]
    | cons y pre =>
      obtain ⟨rfl, htail⟩ := List.cons_eq_cons.mp hall
      have hbelow_deep : ∀ r ∈ (below.map Prod.fst).reverse ++ [⟨name, path.length, true⟩],
          path.length ≤ r.depth := by
        intro r hr
        rcases List.mem_append.mp hr with hr | hr
        · obtain ⟨x, hx, rfl⟩ := List.mem_map.mp (List.mem_reverse.mp hr)
          have hdepth := (hbelow.place hx).2.1
          rw [List.length_append] at hdepth
          exact (Nat.le_add_right _ _).trans hdepth
        · rw [List.mem_singleton.mp hr]
      rcases split_cons htail with ⟨as, hbelow', rfl⟩ | ⟨bs, rfl, hrows'⟩
      · have hup := ihbelow (⟨name, path.length, true⟩ :: above) hbelow'.symm
        have hq := (hbelow.place (x := (row, q)) (by rw [hbelow']; simp)).1
        rw [drop_prefixed hq]
        simpa [Outline.climb] using hup
      · have hup := ih
          ((below.map Prod.fst).reverse ++ [⟨name, path.length, true⟩] ++ above) hrows'.symm
        rw [climb_deep hbelow_deep] at hup
        simpa using hup

end Nightcrow.Library.Outline
