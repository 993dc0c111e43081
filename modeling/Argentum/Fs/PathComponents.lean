import Mathlib.Data.List.TakeWhile
import Argentum.Fs.Path

/-!
# Argentum.Fs.PathComponents

What `fs_path_next` takes off a path, call after call. The components of a path are its
pieces between slashes that are not empty (`pathComponents`, from `List.splitOn`): leading,
repeated and trailing slashes only give empty pieces.

`fsPathNext_components` says what one call does: 0 when no component is left, and otherwise
the first component with a shorter rest that holds the others, or `-ENAMETOOLONG` for a
component of more than `NAME_MAX + 1` characters. Calls on what each one leaves
(`pathNextRun`) then give the components in order and end with 0 within the length of the
path, or with `-ENAMETOOLONG` at the first component that is too long
(`pathNextRun_components`).

The bound is one more than `NAME_MAX`: `n > NAME_MAX` is tested before the character at `n`
is counted, so a component of `NAME_MAX + 1` characters passes. `fs_path_next` returns its
length and writes its NUL to `name_buf[NAME_MAX + 1]`, one past the buffers of `NAME_MAX + 1`
bytes its callers pass (`path_next_accepts_name_max_plus_one`).
-/

namespace Argentum.Fs

/-- The components of a path: its pieces between slashes, without the empty ones. -/
def pathComponents (path : List Char) : List (List Char) :=
  (path.splitOn '/').filter fun s => !s.isEmpty

/-! ## Components -/

/-- A slash in front adds only an empty piece. -/
theorem pathComponents_slash (rest : List Char) :
    pathComponents ('/' :: rest) = pathComponents rest := by
  unfold pathComponents
  rw [List.splitOn_cons_eq_if_modifyHead, if_pos (by decide), List.filter_cons_of_neg (by simp)]

/-- The slashes in front of a path add no component. -/
theorem pathComponents_dropWhile (path : List Char) :
    pathComponents (path.dropWhile (· = '/')) = pathComponents path := by
  induction path with
  | nil => rfl
  | cons c t ih =>
    by_cases hc : c = '/'
    · subst hc
      rw [List.dropWhile_cons_of_pos (by simp), ih, pathComponents_slash]
    · rw [List.dropWhile_cons_of_neg (by simpa using hc)]

theorem ne_nil_of_mem_pathComponents {path name : List Char} (h : name ∈ pathComponents path) :
    name ≠ [] := by
  unfold pathComponents at h
  have := (List.mem_filter.mp h).2
  simpa using this

/-- What `dropWhile` stops at fails its test. -/
theorem head_of_dropWhile_eq_cons {p : Char → Bool} {l r : List Char} {d : Char}
    (h : l.dropWhile p = d :: r) : p d = false := by
  have := List.head?_dropWhile_not p l
  rw [h] at this
  exact this

/-- A path that starts with a character other than a slash: its first component runs to the
next slash, and the others follow. -/
theorem pathComponents_name {c : Char} {t : List Char} (hc : c ≠ '/') :
    pathComponents (c :: t) =
      (c :: t).takeWhile (· ≠ '/') :: pathComponents ((c :: t).dropWhile (· ≠ '/')) := by
  have hname : (c :: t).takeWhile (· ≠ '/') ≠ [] := by
    rw [List.takeWhile_cons_of_pos (by simpa using hc)]
    exact List.cons_ne_nil _ _
  have hslash : '/' ∉ (c :: t).takeWhile (· ≠ '/') := fun hm => by
    simpa using List.mem_takeWhile_imp hm
  have hsplit := (List.takeWhile_append_dropWhile (p := (· ≠ '/')) (l := c :: t)).symm
  have hhead : ∀ d r, (c :: t).dropWhile (· ≠ '/') = d :: r → d = '/' := fun d r h => by
    simpa using head_of_dropWhile_eq_cons h
  generalize (c :: t).takeWhile (· ≠ '/') = name at hname hslash hsplit ⊢
  generalize (c :: t).dropWhile (· ≠ '/') = rest at hsplit hhead ⊢
  unfold pathComponents
  rw [hsplit]
  -- the rest after the name is empty or starts with the slash that ended it
  cases rest with
  | nil =>
    rw [List.append_nil, List.splitOn_eq_singleton hslash]
    simp [hname]
  | cons d r =>
    obtain rfl := hhead d r rfl
    rw [List.splitOn_append_cons_self_of_not_mem hslash,
      List.filter_cons_of_pos (by simpa using hname)]
    exact congrArg _ (pathComponents_slash r).symm

/-! ## One call -/

/-- No component left: `fs_path_next` returns 0 and leaves the path. -/
theorem fsPathNext_of_components_nil {path : List Char} (h : pathComponents path = []) :
    fsPathNext path = (0, [], path) := by
  unfold fsPathNext
  rw [← pathComponents_dropWhile] at h
  -- after the slashes the path is empty, or starts with its first component
  cases hp : path.dropWhile (· = '/') with
  | nil => rw [if_pos rfl]
  | cons c t =>
    have hc : c ≠ '/' := by simpa using head_of_dropWhile_eq_cons hp
    rw [hp, pathComponents_name hc] at h
    exact absurd h (List.cons_ne_nil _ _)

/-- The first component: `fs_path_next` stores it and leaves a shorter rest that holds the
others, or returns `-ENAMETOOLONG` for more than `NAME_MAX + 1` characters. -/
theorem fsPathNext_components {path name : List Char} {ns : List (List Char)}
    (h : pathComponents path = name :: ns) :
    ∃ rest, pathComponents rest = ns ∧ rest.length < path.length ∧
      fsPathNext path =
        if name.length > nameMax + 1 then (-eNameTooLong, [], path)
        else (name.length, name, rest) := by
  rw [← pathComponents_dropWhile] at h
  cases hp : path.dropWhile (· = '/') with
  | nil => rw [hp] at h; exact absurd h (List.cons_ne_nil _ _).symm
  | cons c t =>
    have hc : c ≠ '/' := by simpa using head_of_dropWhile_eq_cons hp
    rw [hp, pathComponents_name hc] at h
    obtain ⟨hname, hns⟩ := List.cons.inj h
    let rest := ((c :: t).dropWhile (· ≠ '/')).dropWhile (· = '/')
    -- the rest is past the first character of the component, which is past the slashes
    have hlen : rest.length < path.length := by
      have h₁ : rest.length ≤ ((c :: t).dropWhile (· ≠ '/')).length :=
        List.length_dropWhile_le _ _
      have h₂ : ((c :: t).dropWhile (· ≠ '/')).length ≤ t.length := by
        rw [List.dropWhile_cons_of_pos (by simpa using hc)]
        exact List.length_dropWhile_le _ _
      have h₃ : (c :: t).length ≤ path.length := hp ▸ List.length_dropWhile_le _ _
      simp only [List.length_cons] at h₃
      omega
    refine ⟨rest, by rw [pathComponents_dropWhile, hns], hlen, ?_⟩
    unfold fsPathNext
    rw [hp, if_neg (List.cons_ne_nil _ _), hname]

/-! ## Calls one after another -/

/-- `fs_path_next` called again on the rest each call leaves, as the loop of
`fs_path_node_resolve_at` calls it, until it returns 0 or an error: the components stored, and
what the last call returned. The fuel bounds the calls. -/
def pathNextRun : Nat → List Char → Option (List (List Char) × Int)
  | 0, _ => none
  | fuel + 1, path =>
    let (r, name, rest) := fsPathNext path
    if r ≤ 0 then some ([], r)
    else (pathNextRun fuel rest).map fun (ns, r) => (name :: ns, r)

/-- Calls of `fs_path_next` from `path` give its components in order, up to the first one of
more than `NAME_MAX + 1` characters, and then return 0, or `-ENAMETOOLONG` if they stopped at
one; they end within the length of the path. -/
theorem pathNextRun_components (path : List Char) {fuel : Nat} (h : path.length < fuel) :
    pathNextRun fuel path =
      some ((pathComponents path).takeWhile (·.length ≤ nameMax + 1),
        if (pathComponents path).all (·.length ≤ nameMax + 1) then 0 else -eNameTooLong) := by
  induction fuel generalizing path with
  | zero => omega
  | succ fuel ih =>
    cases hc : pathComponents path with
    | nil =>
      rw [pathNextRun, fsPathNext_of_components_nil hc]
      rfl
    | cons name ns =>
      obtain ⟨rest, hns, hlen, hnext⟩ := fsPathNext_components hc
      have hne : name ≠ [] := ne_nil_of_mem_pathComponents (hc ▸ List.mem_cons_self)
      rw [pathNextRun, hnext]
      by_cases hlong : name.length > nameMax + 1
      · -- the call stops at a component that is too long
        rw [if_pos hlong]
        have hle : ¬ name.length ≤ nameMax + 1 := by omega
        simp [hle, eNameTooLong]
      · -- the call stores the component, and the calls after it go on from the rest
        rw [if_neg hlong]
        have hpos : ¬ (name.length : Int) ≤ 0 := by
          have := List.length_pos_iff.mpr hne
          omega
        have hle : name.length ≤ nameMax + 1 := by omega
        simp only [hpos, if_false, ih rest (by omega), hns, Option.map_some, hle,
          List.takeWhile_cons_of_pos, decide_true, List.all_cons, Bool.true_and]

/-! ## A component of `NAME_MAX + 1` characters -/

/-- A first component of `NAME_MAX + 1` characters is not too long for `fs_path_next`: it
returns `NAME_MAX + 1` and stores the whole component, whose NUL then goes to
`name_buf[NAME_MAX + 1]`, past a buffer of `NAME_MAX + 1` bytes. -/
theorem path_next_accepts_name_max_plus_one {path name : List Char} {ns : List (List Char)}
    (h : pathComponents path = name :: ns) (hlen : name.length = nameMax + 1) :
    (fsPathNext path).1 = nameMax + 1 ∧ (fsPathNext path).2.1 = name := by
  obtain ⟨rest, -, -, hnext⟩ := fsPathNext_components h
  rw [hnext, if_neg (by omega), hlen]
  exact ⟨rfl, rfl⟩

set_option maxRecDepth 100000 in
/-- The path `/a...a/b`, whose first component is 256 `a`s. -/
theorem path_next_accepts_name_max_plus_one_a :
    pathComponents ('/' :: List.replicate 256 'a' ++ ['/', 'b']) =
        [List.replicate 256 'a', ['b']] ∧
      (fsPathNext ('/' :: List.replicate 256 'a' ++ ['/', 'b'])).1 = nameMax + 1 ∧
      (fsPathNext ('/' :: List.replicate 256 'a' ++ ['/', 'b'])).2.1 = List.replicate 256 'a' := by
  have h : pathComponents ('/' :: List.replicate 256 'a' ++ ['/', 'b']) =
      [List.replicate 256 'a', ['b']] := by
    decide +kernel
  exact ⟨h, path_next_accepts_name_max_plus_one h rfl⟩

end Argentum.Fs
