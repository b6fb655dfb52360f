import ZeroCpu.System.ZeroFs

/-!
# The file system is a tree

Reference: `src/system/ZeroFS.cpp`.

The nodes are a flat map from path strings, and that they form a tree is a matter of path
arithmetic: a normalized path is the join of its components, and taking the parent drops the last
one. `createDirectories` creates directories as it walks down the path and may meet a file on the
way; it changes nothing when it does, because below a missing directory nothing exists.
-/

namespace ZeroCpu.Sys

open Library

namespace ZeroFS

/-! ## Normalized paths -/

/-- A component of a normalized path. -/
structure Component (component : Str) : Prop where
  ne_nil : component ≠ []
  ne_dot : component ≠ Str.ofString "."
  ne_dotdot : component ≠ Str.ofString ".."
  no_slash : kSlash ∉ component
  no_backslash : ('\\' : UInt8) ∉ component
  no_nul : (0 : UInt8) ∉ component

def IsPath (components : List Str) : Prop := ∀ component ∈ components, Component component

/-- The first part of a path is a path. -/
theorem IsPath.concat {done rest : List Str} {component : Str}
    (h : IsPath (done ++ component :: rest)) : IsPath (done ++ [component]) := by
  intro c hc
  refine h c ?_
  simp only [List.mem_append, List.mem_cons] at hc ⊢
  tauto

/-- Components with a slash in front of each. -/
def flat (components : List Str) : Str := components.flatMap fun component => kSlash :: component

theorem joinComponents_of_ne_nil {components : List Str} (h : components ≠ []) :
    joinComponents components = flat components := if_neg h

theorem flat_append (first rest : List Str) : flat (first ++ rest) = flat first ++ flat rest :=
  List.flatMap_append

/-- A path with one more component. -/
theorem joinComponents_concat (components : List Str) (component : Str) :
    joinComponents (components ++ [component]) = flat components ++ [kSlash] ++ component := by
  rw [joinComponents_of_ne_nil (by simp), flat_append]
  simp [flat]

/-- A path is its components with slashes between them. -/
theorem flat_cons_eq_intercalate (component : Str) (components : List Str) :
    flat (component :: components) = kSlash :: [kSlash].intercalate (component :: components) := by
  induction components generalizing component with
  | nil => simp [flat]
  | cons next rest ih =>
    have hnext := ih next
    have hflat : flat (component :: next :: rest) = kSlash :: component ++ flat (next :: rest) := rfl
    rw [hflat, hnext, List.intercalate_cons_cons]
    simp

/-- A component has no slash, and its characters come from the text. -/
theorem mem_splitOn {xs component : Str} (h : component ∈ xs.splitOn kSlash) :
    kSlash ∉ component ∧ ∀ u ∈ component, u ∈ xs := by
  induction xs generalizing component with
  | nil =>
    rw [List.splitOn_nil, List.mem_singleton] at h
    rw [h]
    exact ⟨List.not_mem_nil, fun u hu => hu⟩
  | cons x xs ih =>
    rw [List.splitOn_cons_eq_if_modifyHead] at h
    split_ifs at h with hx
    · rcases List.mem_cons.mp h with rfl | h
      · exact ⟨List.not_mem_nil, fun u hu => absurd hu List.not_mem_nil⟩
      · exact ⟨(ih h).1, fun u hu => List.mem_cons_of_mem x ((ih h).2 u hu)⟩
    · cases hsplit : xs.splitOn kSlash with
      | nil => exact absurd hsplit (List.splitOn_ne_nil _ _)
      | cons first rest =>
        rw [hsplit, List.modifyHead_cons] at h
        rcases List.mem_cons.mp h with rfl | h
        · obtain ⟨hslash, hmem⟩ := ih (hsplit ▸ List.mem_cons_self)
          have hne : kSlash ≠ x := fun heq => hx (by simp [heq])
          refine ⟨fun hin => (List.mem_cons.mp hin).elim hne hslash, fun u hu => ?_⟩
          rcases List.mem_cons.mp hu with rfl | hu
          · exact List.mem_cons_self
          · exact List.mem_cons_of_mem x (hmem u hu)
        · obtain ⟨hslash, hmem⟩ := ih (hsplit ▸ List.mem_cons_of_mem first h)
          exact ⟨hslash, fun u hu => List.mem_cons_of_mem x (hmem u hu)⟩

/-- The collected components are those that are not empty, `.` or `..`. -/
theorem mem_collectComponents {split components : List Str}
    (h : collectComponents split = .ok components) :
    ∀ component ∈ components, component ∈ split ∧ component ≠ []
      ∧ component ≠ Str.ofString "." ∧ component ≠ Str.ofString ".." := by
  induction split generalizing components with
  | nil =>
    obtain rfl := Except.ok.inj h
    exact fun component hc => absurd hc List.not_mem_nil
  | cons first rest ih =>
    rw [collectComponents] at h
    split_ifs at h with hskip hdots
    · intro component hc
      obtain ⟨hmem, hne⟩ := ih h component hc
      exact ⟨List.mem_cons_of_mem first hmem, hne⟩
    · cases h
    · obtain ⟨others, hothers, h⟩ := bind_eq_ok.mp h
      obtain rfl := Except.ok.inj h
      intro component hc
      rcases List.mem_cons.mp hc with rfl | hc
      · exact ⟨List.mem_cons_self, fun h => hskip (.inl h), fun h => hskip (.inr h), hdots⟩
      · obtain ⟨hmem, hne⟩ := ih hothers component hc
        exact ⟨List.mem_cons_of_mem first hmem, hne⟩

/-- Normalizing gives the join of components. -/
theorem normalizePath_eq_ok {path normalized : Str} (h : normalizePath path = .ok normalized) :
    ∃ components, IsPath components ∧ normalized = joinComponents components := by
  cases path with
  | nil => cases h
  | cons first rest =>
    rw [normalizePath] at h
    split_ifs at h with hbad
    · cases h
    · obtain ⟨components, hcollect, h⟩ := bind_eq_ok.mp h
      obtain rfl := Except.ok.inj h
      refine ⟨components, fun component hc => ?_, rfl⟩
      obtain ⟨hsplit, hnil, hdot, hdotdot⟩ := mem_collectComponents hcollect component hc
      obtain ⟨hslash, hmem⟩ := mem_splitOn hsplit
      simp only [not_or] at hbad
      exact ⟨hnil, hdot, hdotdot, hslash,
        fun h => hbad.2.1 (List.mem_cons_of_mem _ (hmem _ h)),
        fun h => hbad.2.2 (List.mem_cons_of_mem _ (hmem _ h))⟩

/-- Every component of a path is collected. -/
theorem collectComponents_of_isPath {components : List Str} (h : IsPath components) :
    collectComponents components = .ok components := by
  induction components with
  | nil => rfl
  | cons component rest ih =>
    have hc := h component List.mem_cons_self
    rw [collectComponents, if_neg (not_or.mpr ⟨hc.ne_nil, hc.ne_dot⟩), if_neg hc.ne_dotdot,
      ih fun other hother => h other (List.mem_cons_of_mem _ hother)]
    rfl

/-- A character that is in no component is not in the path. -/
theorem notMem_flat {components : List Str} {u : UInt8} (hu : u ≠ kSlash)
    (h : ∀ component ∈ components, u ∉ component) : u ∉ flat components := by
  intro hmem
  obtain ⟨component, hc, hin⟩ := List.mem_flatMap.mp hmem
  exact (List.mem_cons.mp hin).elim hu (h component hc)

/-- A path that is made of components is its own normal form. -/
theorem normalizePath_joinComponents {components : List Str} (h : IsPath components) :
    normalizePath (joinComponents components) = .ok (joinComponents components) := by
  cases components with
  | nil => rfl
  | cons component rest =>
    have hback := notMem_flat (u := '\\') (by decide) fun c hc => (h c hc).no_backslash
    have hnul := notMem_flat (u := 0) (by decide) fun c hc => (h c hc).no_nul
    have hne : component :: rest ≠ [] := List.cons_ne_nil component rest
    have hsplit := List.splitOn_intercalate kSlash (fun c hc => (h c hc).no_slash) hne
    rw [flat_cons_eq_intercalate] at hback hnul
    have hgood : ¬ (kSlash ≠ kSlash
        ∨ ('\\' : UInt8) ∈ kSlash :: [kSlash].intercalate (component :: rest)
        ∨ (0 : UInt8) ∈ kSlash :: [kSlash].intercalate (component :: rest)) :=
      not_or.mpr ⟨not_not.mpr rfl, not_or.mpr ⟨hback, hnul⟩⟩
    rw [joinComponents_of_ne_nil hne, flat_cons_eq_intercalate, normalizePath, if_neg hgood, hsplit,
      collectComponents_of_isPath h, ok_bind, joinComponents_of_ne_nil hne, flat_cons_eq_intercalate]
    rfl

/-- A path is split into its components. -/
theorem splitOn_joinComponents {components : List Str} (h : IsPath components) :
    ((joinComponents components).drop 1).splitOn kSlash
      = if components = [] then [[]] else components := by
  cases components with
  | nil => rfl
  | cons component rest =>
    have hne : component :: rest ≠ [] := List.cons_ne_nil component rest
    rw [joinComponents_of_ne_nil hne, flat_cons_eq_intercalate, if_neg hne]
    exact List.splitOn_intercalate kSlash (fun c hc => (h c hc).no_slash) hne

/-- A path determines its components. -/
theorem joinComponents_injective {a b : List Str} (ha : IsPath a) (hb : IsPath b)
    (h : joinComponents a = joinComponents b) : a = b := by
  have hsplit := splitOn_joinComponents ha
  rw [h, splitOn_joinComponents hb] at hsplit
  have hempty : ∀ components : List Str, IsPath components → [[]] ≠ components := by
    rintro components hpath rfl
    exact (hpath [] List.mem_cons_self).ne_nil rfl
  split_ifs at hsplit with hb' ha' ha'
  · rw [ha', hb']
  · exact absurd hsplit (hempty a ha)
  · exact absurd hsplit.symm (hempty b hb)
  · exact hsplit.symm

/-- The parent of a path is the path without its last component. -/
theorem parentPath_joinComponents {components : List Str} {component : Str}
    (h : Component component) :
    parentPath (joinComponents (components ++ [component])) = joinComponents components := by
  have hlast : beforeLastSlash (flat components ++ [kSlash] ++ component) = flat components := by
    have hdrop : (component.reverse ++ kSlash :: (flat components).reverse).dropWhile (· != kSlash)
        = kSlash :: (flat components).reverse := by
      rw [List.dropWhile_append_of_pos fun u hu => ?_, List.dropWhile_cons_of_neg (by simp)]
      have hne : u ≠ kSlash := fun heq => h.no_slash (heq ▸ List.mem_reverse.mp hu)
      simpa using hne
    rw [beforeLastSlash, List.reverse_append, List.reverse_append, List.reverse_singleton,
      List.singleton_append, hdrop, List.drop_one, List.tail_cons, List.reverse_reverse]
  have hroot : flat components ++ [kSlash] ++ component ≠ Str.ofString "/" := by
    intro heq
    have hlength := congrArg List.length heq
    have hpos := List.length_pos_of_ne_nil h.ne_nil
    have hone : (Str.ofString "/").length = 1 := rfl
    rw [List.length_append, List.length_append, List.length_singleton, hone] at hlength
    omega
  rw [joinComponents_concat, parentPath, if_neg hroot, hlast]
  cases components with
  | nil => rfl
  | cons first rest =>
    rw [joinComponents_of_ne_nil (List.cons_ne_nil first rest), if_neg]
    rw [flat_cons_eq_intercalate]
    exact List.cons_ne_nil _ _

/-! ## The tree -/

/-- The nodes form a tree under the root directory. -/
structure Tree (fs : ZeroFS) : Prop where
  normal : ∀ path node, fs.nodes.find? path = some node → normalizePath path = .ok path
  root : ∃ node, fs.nodes.find? (Str.ofString "/") = some node ∧ node.type = .Directory
  parent : ∀ path node, fs.nodes.find? path = some node → path ≠ Str.ofString "/" →
    ∃ dir, fs.nodes.find? (parentPath path) = some dir ∧ dir.type = .Directory

/-- The path is a directory of the file system. -/
def IsDirectory (fs : ZeroFS) (path : Str) : Prop :=
  ∃ node, fs.nodes.find? path = some node ∧ node.type = .Directory

namespace Tree

variable {fs : ZeroFS}

/-- The directory above a node. -/
theorem parent_concat (h : Tree fs) {components : List Str} {component : Str} {node : ZeroFSNode}
    (hpath : IsPath (components ++ [component]))
    (hnode : fs.nodes.find? (joinComponents (components ++ [component])) = some node) :
    IsDirectory fs (joinComponents components) := by
  have hcomponent := hpath component (by simp)
  have hroot : joinComponents (components ++ [component]) ≠ Str.ofString "/" := by
    intro heq
    have hnil := joinComponents_injective hpath (b := []) nofun heq
    exact absurd hnil (by simp)
  have hparent := h.parent _ node hnode hroot
  rw [parentPath_joinComponents hcomponent] at hparent
  exact hparent

/-- Every proper prefix of a node's path is a directory. -/
theorem ancestor (h : Tree fs) (first rest : List Str) (hrest : rest ≠ [])
    (hpath : IsPath (first ++ rest)) {node : ZeroFSNode}
    (hnode : fs.nodes.find? (joinComponents (first ++ rest)) = some node) :
    IsDirectory fs (joinComponents first) := by
  induction rest using List.reverseRecOn generalizing node with
  | nil => exact absurd rfl hrest
  | append_singleton rest component ih =>
    rw [← List.append_assoc] at hpath hnode
    obtain ⟨dir, hdir, htype⟩ := h.parent_concat hpath hnode
    by_cases hnil : rest = []
    · rw [hnil, List.append_nil] at hdir
      exact ⟨dir, hdir, htype⟩
    · exact ih hnil (fun c hc => hpath c (List.mem_append_left _ hc)) hdir

/-- A node may be added to a directory. -/
theorem emplace (h : Tree fs) {components : List Str} {component : Str}
    (hpath : IsPath (components ++ [component]))
    (hnone : fs.nodes.find? (joinComponents (components ++ [component])) = none)
    (hparent : IsDirectory fs (joinComponents components)) (node : ZeroFSNode) :
    Tree ⟨fs.nodes.emplace (joinComponents (components ++ [component])) node⟩ := by
  have hfind := fs.nodes.find?_emplace node hnone
  -- A directory that was there still is.
  have hkeeps : ∀ path, IsDirectory fs path →
      IsDirectory ⟨fs.nodes.emplace (joinComponents (components ++ [component])) node⟩ path := by
    rintro path ⟨dir, hdir, htype⟩
    refine ⟨dir, ?_, htype⟩
    rw [hfind, if_neg, hdir]
    rintro rfl
    rw [hnone] at hdir
    cases hdir
  refine ⟨fun path other hother => ?_, hkeeps _ h.root, fun path other hother hroot => ?_⟩
  · rw [hfind] at hother
    split_ifs at hother with heq
    · rw [heq]
      exact normalizePath_joinComponents hpath
    · exact h.normal path other hother
  · rw [hfind] at hother
    split_ifs at hother with heq
    · rw [heq, parentPath_joinComponents (hpath component (by simp))]
      exact hkeeps _ hparent
    · exact hkeeps _ (h.parent path other hother hroot)

/-- The contents of a node may change. -/
theorem modify (h : Tree fs) (path : Str) {f : ZeroFSNode → ZeroFSNode}
    (hf : ∀ node, (f node).type = node.type) : Tree ⟨fs.nodes.modify path f⟩ := by
  have hfind := fun other => fs.nodes.find?_modify path other f
  have hback : ∀ other node, (fs.nodes.modify path f).find? other = some node →
      ∃ old, fs.nodes.find? other = some old := by
    intro other node hnode
    rw [hfind] at hnode
    split_ifs at hnode
    · obtain ⟨old, hold, -⟩ := Option.map_eq_some_iff.mp hnode
      exact ⟨old, hold⟩
    · exact ⟨node, hnode⟩
  have hkeeps : ∀ other, IsDirectory fs other → IsDirectory ⟨fs.nodes.modify path f⟩ other := by
    rintro other ⟨dir, hdir, htype⟩
    by_cases heq : other = path
    · exact ⟨f dir, by rw [hfind, if_pos heq, hdir]; rfl, (hf dir).trans htype⟩
    · exact ⟨dir, by rw [hfind, if_neg heq, hdir], htype⟩
  refine ⟨fun other node hnode => ?_, hkeeps _ h.root, fun other node hnode hroot => ?_⟩
  · obtain ⟨old, hold⟩ := hback other node hnode
    exact h.normal other old hold
  · obtain ⟨old, hold⟩ := hback other node hnode
    exact hkeeps _ (h.parent other old hold hroot)

end Tree

/-! ## Walking down a path -/

section Walk

variable {fs : ZeroFS} {done rest : List Str} {component : Str}

/-- One iteration of the loop of `createDirectories`. -/
theorem createDirectoriesFrom_cons (h : Component component) (fs : ZeroFS) :
    createDirectoriesFrom (flat done ++ [kSlash]) (component :: rest) fs
      = match fs.nodes.find? (joinComponents (done ++ [component])) with
        | none => createDirectoriesFrom (flat (done ++ [component]) ++ [kSlash]) rest
            ⟨fs.nodes.emplace (joinComponents (done ++ [component])) ⟨.Directory, []⟩⟩
        | some node =>
            if node.type = .Directory then
              createDirectoriesFrom (flat (done ++ [component]) ++ [kSlash]) rest fs
            else (.error ⟨.NotDirectory, "ZeroFS path component is a file: "
              ++ joinComponents (done ++ [component])⟩, fs) := by
  have hcurrent : joinComponents (done ++ [component]) = flat done ++ [kSlash] ++ component :=
    joinComponents_concat done component
  have hflat : flat (done ++ [component]) = flat done ++ [kSlash] ++ component := by
    rw [← joinComponents_of_ne_nil (by simp), hcurrent]
  rw [createDirectoriesFrom, if_neg fun hempty => h.ne_nil hempty.1, hflat, ← hcurrent]
  simp only [Exec.bind_apply, Exec.get_apply]
  cases fs.nodes.find? (joinComponents (done ++ [component])) with
  | none => rfl
  | some node =>
    by_cases htype : node.type = .Directory
    · simp only [htype, ne_eq, not_true_eq_false, if_false, if_true]
    · simp only [htype, ne_eq, not_false_eq_true, if_false, if_true]
      rfl

theorem isDirectory_emplace {path : Str} (hnone : fs.nodes.find? path = none) :
    IsDirectory ⟨fs.nodes.emplace path ⟨.Directory, []⟩⟩ path :=
  ⟨⟨.Directory, []⟩, by rw [SortedMap.find?_emplace _ _ hnone, if_pos rfl], rfl⟩

/-- Below a directory without entries every directory of the path is created. -/
theorem createDirectoriesFrom_fresh (h : Tree fs) (hpath : IsPath (done ++ rest))
    (hdir : IsDirectory fs (joinComponents done))
    (hfresh : ∀ first others, IsPath (done ++ first :: others) →
      fs.nodes.find? (joinComponents (done ++ first :: others)) = none) :
    ∃ fs', createDirectoriesFrom (flat done ++ [kSlash]) rest fs = (.ok (), fs') ∧ Tree fs' := by
  induction rest generalizing fs done with
  | nil => exact ⟨fs, rfl, h⟩
  | cons component rest ih =>
    have hcomponent := hpath.concat
    have hnone := hfresh component [] hcomponent
    rw [createDirectoriesFrom_cons (hcomponent component (by simp)), hnone]
    refine ih (h.emplace hcomponent hnone hdir _) (by simpa using hpath)
      (isDirectory_emplace hnone) fun first others hothers => ?_
    rw [List.append_assoc, List.singleton_append] at hothers ⊢
    rw [SortedMap.find?_emplace _ _ hnone, if_neg, hfresh _ _ hothers]
    -- The directory just created is not below itself.
    intro heq
    have hlist := congrArg List.length (joinComponents_injective hothers hcomponent heq)
    simp at hlist

/-- The walk throws before it has created anything, or arrives. -/
theorem createDirectoriesFrom_spec (h : Tree fs) (hpath : IsPath (done ++ rest))
    (hdir : IsDirectory fs (joinComponents done)) :
    (∃ e, createDirectoriesFrom (flat done ++ [kSlash]) rest fs = (.error e, fs))
      ∨ ∃ fs', createDirectoriesFrom (flat done ++ [kSlash]) rest fs = (.ok (), fs') ∧ Tree fs' := by
  induction rest generalizing done with
  | nil => exact .inr ⟨fs, rfl, h⟩
  | cons component rest ih =>
    have hcomponent := hpath.concat
    have hrest : IsPath (done ++ [component] ++ rest) := by simpa using hpath
    rw [createDirectoriesFrom_cons (hcomponent component (by simp))]
    cases hfind : fs.nodes.find? (joinComponents (done ++ [component])) with
    | some node =>
      by_cases htype : node.type = .Directory
      · simp only [htype, if_true]
        exact ih hrest ⟨node, hfind, htype⟩
      · simp only [htype, if_false]
        exact .inl ⟨_, rfl⟩
    | none =>
      refine .inr (createDirectoriesFrom_fresh (h.emplace hcomponent hfind hdir _) hrest
        (isDirectory_emplace hfind) fun first others hothers => ?_)
      rw [SortedMap.find?_emplace _ _ hfind, if_neg]
      · -- A node below the missing directory would have it as an ancestor.
        cases hbelow : fs.nodes.find? (joinComponents (done ++ [component] ++ first :: others)) with
        | none => rfl
        | some node =>
          obtain ⟨dir, hmissing, -⟩ := h.ancestor _ _ (List.cons_ne_nil _ _) hothers hbelow
          rw [hfind] at hmissing
          cases hmissing
      · intro heq
        have hlist := congrArg List.length (joinComponents_injective hothers hcomponent heq)
        simp at hlist

end Walk

end ZeroFS

/-! ## Calls -/

/-- The calls of a file system. -/
inductive ZeroFSCall where
  | createDirectory (path : Str)
  | createDirectories (path : Str)
  | putFile (path : Str) (data : List UInt8)
  | writeFile (path : Str) (offset : ℕ) (data : List UInt8)
  | readFile (path : Str) (offset count : ℕ)
  | stat (path : Str)
  | «exists» (path : Str)
  | listDirectory (path : Str)

namespace ZeroFSCall

open ZeroFS

/-- `node.data.resize(size, 0)` when the file is shorter. -/
def resizeData (normalized : Str) (size : ℕ) : Exec ZeroFSException ZeroFS Unit :=
  Exec.modify fun fs =>
    ⟨fs.nodes.modify normalized fun node => { node with data := grow node.data size }⟩

/-- `std::copy` into a file that is long enough. -/
def copyData (normalized : Str) (offset : ℕ) (data : List UInt8) :
    Exec ZeroFSException ZeroFS Unit :=
  Exec.modify fun fs => ⟨fs.nodes.modify normalized fun node =>
    { node with data := node.data.take offset ++ data ++ node.data.drop (offset + data.length) }⟩

/-- Insert or replace one node. -/
def emplaceNode (normalized : Str) (node : ZeroFSNode) : Exec ZeroFSException ZeroFS Unit :=
  Exec.modify fun fs => ⟨fs.nodes.emplace normalized node⟩

/-- The check that the parent of a path is a directory. -/
def requireParent (normalized : Str) : Exec ZeroFSException ZeroFS Unit := do
  let fs ← Exec.get
  let parentNode ← Exec.lift (fs.requireNode (parentPath normalized))
  Exec.require (parentNode.type == .Directory)
    ⟨.NotDirectory, "ZeroFS parent is not a directory: " ++ parentPath normalized⟩

/-- A call, statement by statement; what a reading call returns is left out. -/
def run : ZeroFSCall → Exec ZeroFSException ZeroFS Unit
  | .createDirectory path => do
      let normalized ← Exec.lift (normalizePath path)
      let fs ← Exec.get
      Exec.require (fs.nodes.find? normalized).isNone
        ⟨.AlreadyExists, "ZeroFS path already exists: " ++ normalized⟩
      requireParent normalized
      emplaceNode normalized ⟨.Directory, []⟩
  | .createDirectories path => ZeroFS.createDirectories path
  | .putFile path data => do
      let normalized ← Exec.lift (normalizePath path)
      Exec.require (normalized != Str.ofString "/") ⟨.IsDirectory, "ZeroFS root is a directory"⟩
      requireParent normalized
      let fs ← Exec.get
      match fs.nodes.find? normalized with
      | some node => do
          Exec.require (node.type != .Directory)
            ⟨.IsDirectory, "ZeroFS path is a directory: " ++ normalized⟩
          Exec.modify fun fs => ⟨fs.nodes.modify normalized fun node => { node with data := data }⟩
      | none => emplaceNode normalized ⟨.File, data⟩
  | .writeFile path offset data => do
      let normalized ← Exec.lift (normalizePath path)
      let fs ← Exec.get
      let _ ← Exec.lift (fs.requireFile normalized)
      Exec.require (data.length ≤ Binary.sizeMax - offset)
        ⟨.InvalidOffset, "ZeroFS write offset overflows size_t"⟩
      resizeData normalized offset
      resizeData normalized (offset + data.length)
      copyData normalized offset data
  | .readFile path offset count => reading fun fs => fs.readFile path offset count
  | .stat path => reading fun fs => fs.stat path
  | .exists path => reading fun fs => fs.exists path
  | .listDirectory path => reading fun fs => fs.listDirectory path
where
  /-- A `const` method. -/
  reading {α : Type} (f : ZeroFS → Except ZeroFSException α) : Exec ZeroFSException ZeroFS Unit := do
    let fs ← Exec.get
    let _ ← Exec.lift (f fs)
    pure ()

/-! ## What a call does to the tree -/

/-- From the tree `fs`, a return leaves a tree and a throw leaves `fs`. -/
def Atomic (fs : ZeroFS) (m : Exec ZeroFSException ZeroFS Unit) : Prop :=
  Exec.Triple (· = fs) m (fun _ => Tree) (fun _ s => s = fs)

section Atomic

variable {fs : ZeroFS} {α : Type}

/-- A check from elsewhere may come first. -/
theorem Atomic.lift_bind {r : Except ZeroFSException α} {f : α → Exec ZeroFSException ZeroFS Unit}
    (h : ∀ a, r = .ok a → Atomic fs (f a)) : Atomic fs (Exec.lift r >>= f) := by
  rintro s rfl
  cases r with
  | error e => exact rfl
  | ok a => exact h a rfl s rfl

/-- The file system may be read first. -/
theorem Atomic.get_bind {f : ZeroFS → Exec ZeroFSException ZeroFS Unit} (h : Atomic fs (f fs)) :
    Atomic fs (Exec.get >>= f) := by
  rintro s rfl
  exact h s rfl

/-- A check may come first. -/
theorem Atomic.require_bind {b : Bool} {e : ZeroFSException}
    {f : Unit → Exec ZeroFSException ZeroFS Unit} (h : b = true → Atomic fs (f ())) :
    Atomic fs (Exec.require b e >>= f) := by
  rintro s rfl
  cases b with
  | false => exact rfl
  | true => exact h rfl s rfl

theorem Atomic.modify {f : ZeroFS → ZeroFS} (h : ZeroFS.Tree (f fs)) : Atomic fs (Exec.modify f) := by
  rintro s rfl
  exact h

/-- The check for the parent may come first. -/
theorem Atomic.requireParent_bind {normalized : Str} {m : Exec ZeroFSException ZeroFS Unit}
    (h : IsDirectory fs (parentPath normalized) → Atomic fs m) :
    Atomic fs (requireParent normalized >>= fun _ => m) := by
  simp only [requireParent, bind_assoc]
  refine .get_bind (.lift_bind fun parentNode hparent => .require_bind fun htype => h ?_)
  refine ⟨parentNode, ?_, beq_iff_eq.mp htype⟩
  rw [requireNode] at hparent
  cases hfind : fs.nodes.find? (parentPath normalized) with
  | none => rw [hfind] at hparent; cases hparent
  | some node =>
    rw [hfind] at hparent
    rw [Except.ok.inj hparent]

/-- The path of a new node is a component below a directory. -/
theorem tree_emplace (h : ZeroFS.Tree fs) {path normalized : Str}
    (hpath : normalizePath path = .ok normalized) (hroot : normalized ≠ Str.ofString "/")
    (hnone : fs.nodes.find? normalized = none) (hparent : IsDirectory fs (parentPath normalized))
    (node : ZeroFSNode) : ZeroFS.Tree ⟨fs.nodes.emplace normalized node⟩ := by
  obtain ⟨components, hcomponents, rfl⟩ := normalizePath_eq_ok hpath
  rcases List.eq_nil_or_concat components with rfl | ⟨first, last, rfl⟩
  · exact absurd rfl hroot
  · rw [List.concat_eq_append] at hcomponents hnone hparent ⊢
    rw [parentPath_joinComponents (hcomponents last (by simp))] at hparent
    exact h.emplace hcomponents hnone hparent node

/-- Each directory of the path is created as a whole. -/
theorem atomic_createDirectories (h : ZeroFS.Tree fs) (path : Str) :
    Atomic fs (ZeroFS.createDirectories path) := by
  refine .lift_bind fun normalized hpath => ?_
  obtain ⟨components, hcomponents, rfl⟩ := normalizePath_eq_ok hpath
  split_ifs with hroot
  · rintro s rfl
    exact h
  · have hne : components ≠ [] := by
      rintro rfl
      exact hroot rfl
    have htake : (joinComponents components).take 1 = flat [] ++ [kSlash] := by
      cases components with
      | nil => exact absurd rfl hne
      | cons first rest =>
        rw [joinComponents_of_ne_nil hne, flat_cons_eq_intercalate]
        rfl
    rw [htake, splitOn_joinComponents hcomponents, if_neg hne]
    rintro s rfl
    have hpaths : IsPath ([] ++ components) := hcomponents
    rcases createDirectoriesFrom_spec h hpaths h.root with
      ⟨e, hwalk⟩ | ⟨fs', hwalk, htree⟩
    · rw [hwalk]
      exact rfl
    · rw [hwalk]
      exact htree

/-- Every call returns a tree or throws without a change. -/
theorem atomic_run (h : ZeroFS.Tree fs) (call : ZeroFSCall) : Atomic fs call.run := by
  have hreading : ∀ {α : Type} (f : ZeroFS → Except ZeroFSException α), Atomic fs (run.reading f) := by
    intro α f
    refine .get_bind (.lift_bind fun _ _ => ?_)
    rintro s rfl
    exact h
  -- A call throws before it assigns; what it assigns is one node whose parent is a directory.
  cases call with
  | createDirectory path =>
    refine .lift_bind fun normalized hpath => .get_bind (.require_bind fun hnone => ?_)
    refine .requireParent_bind fun hparent => .modify ?_
    have hnone := Option.isNone_iff_eq_none.mp hnone
    refine tree_emplace h hpath ?_ hnone hparent _
    rintro rfl
    obtain ⟨node, hnode, -⟩ := h.root
    rw [hnone] at hnode
    cases hnode
  | createDirectories path => exact atomic_createDirectories h path
  | putFile path data =>
    refine .lift_bind fun normalized hpath => .require_bind fun hroot => ?_
    refine .requireParent_bind fun hparent => .get_bind ?_
    cases hfind : fs.nodes.find? normalized with
    | some node => exact .require_bind fun _ => .modify (h.modify normalized fun _ => rfl)
    | none => exact .modify (tree_emplace h hpath (bne_iff_ne.mp hroot) hfind hparent _)
  | writeFile path offset data =>
    refine .lift_bind fun normalized _ => .get_bind (.lift_bind fun _ _ => .require_bind fun _ => ?_)
    rintro s rfl
    have hresize : ∀ fs size, ZeroFS.Tree fs → ZeroFS.Tree (resizeData normalized size fs).2 :=
      fun _ _ hfs => hfs.modify normalized fun _ => rfl
    exact (hresize _ (offset + data.length) (hresize _ offset h)).modify normalized fun _ => rfl
  | readFile path offset count => exact hreading _
  | stat path => exact hreading _
  | «exists» path => exact hreading _
  | listDirectory path => exact hreading _

end Atomic

/-- Calls in order, whether they return or throw. -/
def runCalls : List ZeroFSCall → ZeroFS → ZeroFS
  | [], fs => fs
  | call :: calls, fs => runCalls calls (call.run fs).2

/-- A call keeps the tree, whether it returns or throws. -/
theorem tree_run {fs : ZeroFS} (h : ZeroFS.Tree fs) (call : ZeroFSCall) :
    ZeroFS.Tree (call.run fs).2 := by
  have hatomic := atomic_run h call fs rfl
  generalize call.run fs = out at hatomic ⊢
  rcases out with ⟨e | u, fs'⟩
  · obtain rfl : fs' = fs := hatomic
    exact h
  · exact hatomic

/-- Any calls keep the tree. -/
theorem tree_runCalls {fs : ZeroFS} (h : ZeroFS.Tree fs) (calls : List ZeroFSCall) :
    ZeroFS.Tree (runCalls calls fs) := by
  induction calls generalizing fs with
  | nil => exact h
  | cons call calls ih => exact ih (tree_run h call)

/-! ## A fresh file system -/

/-- Creating a directory assigns once, at its end. -/
theorem run_createDirectory (path : Str) (fs : ZeroFS) :
    (createDirectory path).run fs
      = Exec.assign (fun fs => (fs.createDirectory path).map ((), ·)) fs := by
  simp only [run, requireParent, emplaceNode, ZeroFS.createDirectory, Exec.assign, bind_assoc,
    Exec.bind_apply, Exec.lift_apply, Exec.get_apply]
  rcases normalizePath path with e | normalized
  · rfl
  · simp only [ok_bind]
    cases fs.nodes.find? normalized with
    | some node => rfl
    | none =>
      simp only [Exec.require_apply, Option.isNone_none, if_true, Option.isSome_none,
        Bool.false_eq_true, if_false]
      rcases fs.requireNode (parentPath normalized) with e | node
      · rfl
      · simp only [ok_bind]
        by_cases htype : node.type = .Directory
        · simp only [htype, beq_self_eq_true, if_true, ne_eq, not_true_eq_false, if_false]
          rfl
        · have hbeq : (node.type == .Directory) = false := beq_eq_false_iff_ne.mpr htype
          simp only [hbeq, Bool.false_eq_true, if_false, ne_eq, htype, not_false_eq_true, if_true]
          rfl

/-- Writing a file assigns once, at its end. -/
theorem run_writeFile (path : Str) (offset : ℕ) (data : List UInt8) (fs : ZeroFS) :
    (writeFile path offset data).run fs
      = Exec.assign (fun fs => (fs.writeFile path offset data).map ((), ·)) fs := by
  simp only [run, resizeData, copyData, ZeroFS.writeFile, Exec.assign, Exec.bind_apply,
    Exec.lift_apply, Exec.get_apply]
  rcases normalizePath path with e | normalized
  · rfl
  · simp only [ok_bind]
    cases hfile : fs.requireFile normalized with
    | error e => rfl
    | ok node =>
      simp only [ok_bind, Exec.require_apply, decide_eq_true_eq]
      -- The file is resized twice and then written; on its node this is one change.
      by_cases hsize : data.length ≤ Binary.sizeMax - offset
      · have hfind : fs.nodes.find? normalized = some node := by
          simp only [requireFile, requireNode, bind_eq_ok] at hfile
          obtain ⟨found, hfound, hfile⟩ := hfile
          split_ifs at hfile
          · cases hfile
          · rw [← Except.ok.inj hfile]
            cases hfind : fs.nodes.find? normalized with
            | none => rw [hfind] at hfound; cases hfound
            | some other => rw [hfind] at hfound; rw [Except.ok.inj hfound]
        rw [if_pos hsize, if_neg (Nat.not_lt.mpr hsize)]
        refine congrArg (Prod.mk (Except.ok ())) (congrArg ZeroFS.mk ?_)
        simp only [SortedMap.modify_modify]
        refine fs.nodes.modify_congr fun value hvalue => ?_
        rw [hfind] at hvalue
        obtain rfl := Option.some.inj hvalue
        rfl
      · rw [if_neg hsize, if_pos (Nat.not_le.mp hsize)]
        rfl

/-- A write that the protected calls make. -/
theorem tree_writeFile {fs fs' : ZeroFS} {path : Str} {offset : ℕ} {data : List UInt8}
    (h : ZeroFS.Tree fs) (hwrite : fs.writeFile path offset data = .ok fs') : ZeroFS.Tree fs' := by
  have htree := tree_run h (.writeFile path offset data)
  rw [run_writeFile, Exec.assign, hwrite] at htree
  exact htree

/-- Creating a directory keeps the tree. -/
theorem tree_createDirectory {fs fs' : ZeroFS} {path : Str} (h : ZeroFS.Tree fs)
    (hcreate : fs.createDirectory path = .ok fs') : ZeroFS.Tree fs' := by
  have htree := tree_run h (.createDirectory path)
  rw [run_createDirectory, Exec.assign, hcreate] at htree
  exact htree

/-- The file system with the root only is a tree. -/
theorem tree_root :
    ZeroFS.Tree ⟨SortedMap.empty.emplace (Str.ofString "/") ⟨.Directory, []⟩⟩ := by
  have hnone : (SortedMap.empty : SortedMap Str ZeroFSNode).find? (Str.ofString "/") = none := rfl
  have hfind := SortedMap.find?_emplace _ (⟨.Directory, []⟩ : ZeroFSNode) hnone
  refine ⟨fun path node hnode => ?_, ⟨_, (hfind _).trans (if_pos rfl), rfl⟩,
    fun path node hnode hroot => ?_⟩
  · rw [hfind] at hnode
    split_ifs at hnode with heq
    · rw [heq]
      rfl
    · cases hnode
  · rw [hfind, if_neg hroot] at hnode
    cases hnode

/-- A new file system is a tree. -/
theorem tree_new {fs : ZeroFS} (h : ZeroFS.new = .ok fs) : ZeroFS.Tree fs := by
  simp only [ZeroFS.new, bind_eq_ok] at h
  obtain ⟨first, hfirst, second, hsecond, hthird⟩ := h
  exact tree_createDirectory (tree_createDirectory (tree_createDirectory tree_root hfirst) hsecond)
    hthird

/-- The constructor does not throw. -/
theorem exists_new : ∃ fresh, ZeroFS.new = .ok fresh := by
  have hsome : ZeroFS.new.toOption.isSome = true := by decide +kernel
  cases hnew : ZeroFS.new with
  | error e =>
    rw [hnew] at hsome
    cases hsome
  | ok fresh => exact ⟨fresh, rfl⟩

/-- A file system is a tree after any sequence of calls on a fresh one, and a call that throws
changes nothing. -/
theorem zerofs_tree_preserved :
    ∃ fresh, ZeroFS.new = .ok fresh
      ∧ ∀ calls, ZeroFS.Tree (runCalls calls fresh)
        ∧ ∀ (call : ZeroFSCall) e fs, call.run (runCalls calls fresh) = (.error e, fs) →
          fs = runCalls calls fresh := by
  obtain ⟨fresh, hnew⟩ := exists_new
  refine ⟨fresh, hnew, fun calls => ?_⟩
  have htree := tree_runCalls (tree_new hnew) calls
  exact ⟨htree, fun call e fs h => (atomic_run htree call).error rfl h⟩

end ZeroFSCall

end ZeroCpu.Sys
