import ZeroCpu.System.ZeroFsTree

/-!
# Path normalization

Reference: `ZeroFS::normalizePath` in `src/system/ZeroFS.cpp`.

The code scans a path with a cursor. The scan collects the components of the path between its
slashes, so whether a path is accepted, and which node it names, depends on its components only.
-/

namespace ZeroCpu.Sys

open Library

namespace ZeroFS

/-! ## The scan -/

/-- `path.find('/', cursor)`, or `path.size()` where there is no slash. -/
def findSlash (path : Str) (cursor : ℕ) : ℕ :=
  cursor + ((path.drop cursor).takeWhile (· != kSlash)).length

/-- What the loop of `normalizePath` does with a component. -/
def pushComponent (components : List Str) (component : Str) : Except ZeroFSException (List Str) :=
  if component = [] ∨ component = Str.ofString "." then pure components
  else if component = Str.ofString ".." then
    fail .InvalidPath "ZeroFS path traversal '..' is not allowed"
  else pure (components ++ [component])

/-- The loop of `normalizePath`. -/
def scanComponents (path : Str) (cursor : ℕ) (components : List Str) :
    Except ZeroFSException (List Str) :=
  if cursor ≤ path.length then do
    let slash := findSlash path cursor
    let components ← pushComponent components ((path.drop cursor).take (slash - cursor))
    if slash = path.length then pure components else scanComponents path (slash + 1) components
  else pure components
termination_by path.length + 1 - cursor
decreasing_by
  have : cursor ≤ findSlash path cursor := Nat.le_add_right _ _
  omega

/-- `ZeroFS::normalizePath`, with its cursor. -/
def scanPath (path : Str) : Except ZeroFSException Str :=
  if path = [] ∨ path.head? ≠ some kSlash ∨ ('\\' : UInt8) ∈ path ∨ (0 : UInt8) ∈ path then
    fail .InvalidPath "ZeroFS path must be an absolute '/' path"
  else do
    let components ← scanComponents path 1 []
    pure (joinComponents components)

/-- The rest of the path at the cursor, up to the next slash and after it. -/
theorem findSlash_cases (path : Str) (cursor : ℕ) (h : cursor ≤ path.length) :
    (findSlash path cursor = path.length ∧ kSlash ∉ path.drop cursor)
      ∨ findSlash path cursor < path.length
        ∧ kSlash ∉ (path.drop cursor).take (findSlash path cursor - cursor)
        ∧ path.drop cursor = (path.drop cursor).take (findSlash path cursor - cursor)
            ++ kSlash :: path.drop (findSlash path cursor + 1) := by
  have hsplit := List.takeWhile_append_dropWhile (p := (· != kSlash)) (l := path.drop cursor)
  have hword : kSlash ∉ (path.drop cursor).takeWhile (· != kSlash) := by
    intro hmem
    have hall := List.all_eq_true.mp (List.all_takeWhile (p := (· != kSlash))) kSlash hmem
    simp at hall
  have htake : (path.drop cursor).take (findSlash path cursor - cursor)
      = (path.drop cursor).takeWhile (· != kSlash) := by
    rw [findSlash, Nat.add_sub_cancel_left]
    exact (List.prefix_iff_eq_take.mp (List.takeWhile_prefix _)).symm
  have hlength : (path.drop cursor).length = path.length - cursor := List.length_drop
  cases hrest : (path.drop cursor).dropWhile (· != kSlash) with
  | nil =>
    -- There is no slash from the cursor on.
    rw [hrest, List.append_nil] at hsplit
    refine .inl ⟨?_, hsplit ▸ hword⟩
    rw [findSlash, hsplit, hlength]
    omega
  | cons slash rest =>
    have hslash : slash = kSlash := by
      have hhead := List.head_dropWhile_not (· != kSlash) (by rw [hrest]; exact List.cons_ne_nil _ _)
      simpa [hrest] using hhead
    subst hslash
    rw [hrest] at hsplit
    have hsum := congrArg List.length hsplit
    rw [List.length_append, List.length_cons, hlength] at hsum
    have hdrop : path.drop (findSlash path cursor + 1) = rest := by
      have hafter := congrArg (List.drop (findSlash path cursor - cursor + 1)) hsplit
      rw [findSlash, Nat.add_sub_cancel_left, List.drop_drop, List.drop_append,
        List.drop_eq_nil_of_le (Nat.le_succ _), Nat.add_sub_cancel_left] at hafter
      rw [findSlash, Nat.add_assoc, ← hafter]
      rfl
    refine .inr ⟨?_, htake ▸ hword, ?_⟩
    · rw [findSlash]
      omega
    · rw [htake, hdrop, hsplit]

/-- Pushing one component and then collecting the rest is collecting all of them. -/
theorem pushComponent_bind (components : List Str) (component : Str) (rest : List Str) :
    (pushComponent components component >>= fun components =>
        (collectComponents rest).map (components ++ ·))
      = (collectComponents (component :: rest)).map (components ++ ·) := by
  rw [pushComponent, collectComponents]
  split_ifs with hskip hdots
  · rfl
  · rfl
  · cases collectComponents rest with
    | error e => rfl
    | ok others => simp [Except.map, bind, Except.bind, pure, Except.pure]

/-- The scan from a cursor collects the components of the rest of the path. -/
theorem scanComponents_eq (path : Str) (cursor : ℕ) (components : List Str)
    (h : cursor ≤ path.length) :
    scanComponents path cursor components
      = (collectComponents ((path.drop cursor).splitOn kSlash)).map (components ++ ·) := by
  -- Induction on the number of bytes after the cursor.
  induction hn : path.length - cursor using Nat.strong_induction_on generalizing cursor components with
  | _ n ih =>
    rw [scanComponents, if_pos h]
    rcases findSlash_cases path cursor h with ⟨hend, hword⟩ | ⟨hlt, hword, hrest⟩
    · have htake : (path.drop cursor).take (path.length - cursor) = path.drop cursor := by
        refine List.take_of_length_le ?_
        rw [List.length_drop]
      rw [List.splitOn_eq_singleton hword, ← pushComponent_bind]
      simp only [hend, htake, if_true]
      refine congrArg _ (funext fun components => ?_)
      simp [collectComponents, Except.map, pure, Except.pure]
    · have hge : cursor ≤ findSlash path cursor := Nat.le_add_right _ _
      have hsplit : (path.drop cursor).splitOn kSlash
          = (path.drop cursor).take (findSlash path cursor - cursor)
            :: (path.drop (findSlash path cursor + 1)).splitOn kSlash := by
        conv => lhs; rw [hrest]
        exact List.splitOn_append_cons_self_of_not_mem hword _
      rw [hsplit, ← pushComponent_bind]
      simp only [hlt.ne, if_false]
      refine congrArg _ (funext fun components => ?_)
      exact ih _ (by omega) _ components hlt rfl

/-- The scan computes the normal form. -/
theorem scanPath_eq (path : Str) : scanPath path = normalizePath path := by
  cases path with
  | nil => rfl
  | cons first rest =>
    have hscan := scanComponents_eq (first :: rest) 1 [] (Nat.le_add_left 1 _)
    have hmap : ∀ r : Except ZeroFSException (List Str), r.map (([] : List Str) ++ ·) = r := by
      intro r
      cases r <;> rfl
    rw [hmap] at hscan
    rw [scanPath, normalizePath, hscan]
    simp only [List.cons_ne_nil, false_or, List.head?_cons, ne_eq, Option.some.injEq,
      List.drop_succ_cons, List.drop_zero]

/-! ## What is accepted, and what it names -/

/-- The components of a path that name something. -/
def namedComponents (path : Str) : List Str :=
  (path.splitOn kSlash).filter fun component => component ≠ [] ∧ component ≠ Str.ofString "."

/-- Collecting drops the components that name nothing, and fails exactly on `..`. -/
theorem collectComponents_eq (split : List Str) :
    collectComponents split
      = if Str.ofString ".." ∈ split then
          fail .InvalidPath "ZeroFS path traversal '..' is not allowed"
        else .ok (split.filter fun component => component ≠ [] ∧ component ≠ Str.ofString ".") := by
  induction split with
  | nil => rfl
  | cons component rest ih =>
    rw [collectComponents, ih]
    by_cases hskip : component = [] ∨ component = Str.ofString "."
    · have hdots : Str.ofString ".." ≠ component := by
        rcases hskip with rfl | rfl <;> decide
      have hdrop : ¬ (component ≠ [] ∧ component ≠ Str.ofString ".") := by tauto
      rw [if_pos hskip, List.filter_cons_of_neg (by simpa using hdrop)]
      simp only [List.mem_cons, hdots, false_or]
    · by_cases hdots : component = Str.ofString ".."
      · rw [if_neg hskip, if_pos hdots, if_pos (by rw [hdots]; exact List.mem_cons_self)]
      · have hkeep : component ≠ [] ∧ component ≠ Str.ofString "." := not_or.mp hskip
        rw [if_neg hskip, if_neg hdots, List.filter_cons_of_pos (by simpa using hkeep)]
        simp only [List.mem_cons, Ne.symm hdots, false_or]
        split_ifs <;> rfl

/-- A path is accepted exactly when it is absolute, without backslash, NUL or `..`. -/
structure Accepted (path : Str) : Prop where
  absolute : path.head? = some kSlash
  no_backslash : ('\\' : UInt8) ∉ path
  no_nul : (0 : UInt8) ∉ path
  no_dotdot : Str.ofString ".." ∉ path.splitOn kSlash

/-- An accepted path is normalised to its named components. -/
theorem normalizePath_of_accepted {path : Str} (h : Accepted path) :
    normalizePath path = .ok (joinComponents (namedComponents path)) := by
  cases path with
  | nil => exact absurd h.absolute nofun
  | cons first rest =>
    obtain rfl : first = kSlash := Option.some.inj h.absolute
    have hdotdot := h.no_dotdot
    have hsplit : (kSlash :: rest).splitOn kSlash = [] :: rest.splitOn kSlash := by
      rw [List.splitOn_cons_eq_if_modifyHead, if_pos (beq_self_eq_true _)]
    rw [hsplit] at hdotdot
    have hrest := fun hmem => hdotdot (List.mem_cons_of_mem [] hmem)
    rw [normalizePath, if_neg (by simp [h.no_backslash, h.no_nul]), collectComponents_eq,
      if_neg hrest, namedComponents, hsplit]
    rfl

/-- A path that is normalised is accepted. -/
theorem accepted_of_normalizePath {path normalized : Str}
    (h : normalizePath path = .ok normalized) : Accepted path := by
  cases path with
  | nil => cases h
  | cons first rest =>
    rw [normalizePath] at h
    split_ifs at h with hbad
    · cases h
    · simp only [not_or, ne_eq, not_not] at hbad
      obtain ⟨rfl, hback, hnul⟩ := hbad
      refine ⟨rfl, hback, hnul, ?_⟩
      rw [List.splitOn_cons_eq_if_modifyHead, if_pos (beq_self_eq_true _)]
      intro hmem
      rw [collectComponents_eq, if_pos ((List.mem_cons.mp hmem).resolve_left (List.cons_ne_nil _ _))] at h
      cases h

/-- The named components of an accepted path are a path. -/
theorem namedComponents_isPath {path : Str} (h : Accepted path) : IsPath (namedComponents path) := by
  intro component hmem
  obtain ⟨hsplit, hnamed⟩ := List.mem_filter.mp hmem
  obtain ⟨hnil, hdot⟩ := of_decide_eq_true hnamed
  obtain ⟨hslash, hbytes⟩ := mem_splitOn hsplit
  refine ⟨hnil, hdot, fun heq => h.no_dotdot (heq ▸ hsplit), hslash, fun hin => ?_, fun hin => ?_⟩
  · exact h.no_backslash (hbytes _ hin)
  · exact h.no_nul (hbytes _ hin)

/-- A slash and the components joined by single slashes. -/
theorem joinComponents_eq_intercalate (components : List Str) :
    joinComponents components = kSlash :: [kSlash].intercalate components := by
  cases components with
  | nil => rfl
  | cons component rest =>
    rw [joinComponents_of_ne_nil (List.cons_ne_nil component rest), flat_cons_eq_intercalate]

/-- The scan accepts what `Accepted` describes and returns its normal form. -/
theorem scanPath_eq_ok {path normalized : Str} :
    scanPath path = .ok normalized
      ↔ Accepted path ∧ normalized = joinComponents (namedComponents path) := by
  rw [scanPath_eq]
  constructor
  · intro h
    have haccepted := accepted_of_normalizePath h
    rw [normalizePath_of_accepted haccepted] at h
    exact ⟨haccepted, (Except.ok.inj h).symm⟩
  · rintro ⟨h, rfl⟩
    exact normalizePath_of_accepted h

/-- Which paths are accepted, what they are normalized to, that the result is a fixed point, and
which paths name the same node. -/
theorem scanPath_exact (path : Str) :
    ((∃ normalized, scanPath path = .ok normalized)
        ↔ path.head? = some kSlash ∧ ('\\' : UInt8) ∉ path ∧ (0 : UInt8) ∉ path
          ∧ Str.ofString ".." ∉ path.splitOn kSlash)
      ∧ ∀ normalized, scanPath path = .ok normalized →
        normalized = kSlash :: [kSlash].intercalate (namedComponents path)
          ∧ scanPath normalized = .ok normalized
          ∧ ∀ other normalizedOther, scanPath other = .ok normalizedOther →
            (normalized = normalizedOther ↔ namedComponents path = namedComponents other) := by
  refine ⟨⟨?_, ?_⟩, ?_⟩
  · rintro ⟨normalized, h⟩
    have haccepted := (scanPath_eq_ok.mp h).1
    exact ⟨haccepted.absolute, haccepted.no_backslash, haccepted.no_nul, haccepted.no_dotdot⟩
  · rintro ⟨habsolute, hback, hnul, hdotdot⟩
    exact ⟨_, scanPath_eq_ok.mpr ⟨⟨habsolute, hback, hnul, hdotdot⟩, rfl⟩⟩
  · intro normalized h
    obtain ⟨haccepted, rfl⟩ := scanPath_eq_ok.mp h
    have hpath := namedComponents_isPath haccepted
    refine ⟨joinComponents_eq_intercalate _, ?_, fun other normalizedOther hother => ?_⟩
    · rw [scanPath_eq]
      exact normalizePath_joinComponents hpath
    · obtain ⟨hacceptedOther, rfl⟩ := scanPath_eq_ok.mp hother
      exact ⟨joinComponents_injective hpath (namedComponents_isPath hacceptedOther),
        congrArg joinComponents⟩

/-- Repeated slashes, a dot and a trailing slash. -/
theorem scanPath_exact_slashes :
    ∃ normalized, scanPath "//bin/./tools/" = .ok normalized ∧ normalized = Str.ofString "/bin/tools"
      ∧ namedComponents "//bin/./tools/" = namedComponents "/bin//tools" := by
  have hfirst : scanPath "//bin/./tools/" = .ok (Str.ofString "/bin/tools") := by
    rw [scanPath_eq]
    decide +kernel
  have hsecond : scanPath "/bin//tools" = .ok (Str.ofString "/bin/tools") := by
    rw [scanPath_eq]
    decide +kernel
  obtain ⟨-, hsame⟩ := scanPath_exact "//bin/./tools/"
  obtain ⟨-, -, hnames⟩ := hsame _ hfirst
  exact ⟨_, hfirst, rfl, (hnames _ _ hsecond).mp rfl⟩

end ZeroFS

end ZeroCpu.Sys
