import Mathlib.Algebra.Order.BigOperators.Group.List
import Mathlib.Data.List.Nodup
import ZeroCpu.System.ZeroFsTree

/-!
# Listing a directory, and walking the tree

Reference: `ZeroFS::listDirectory`, `ZeroFS::parentPath` and `ZeroFS::baseName` in
`src/system/ZeroFS.cpp`.

A listing is found by comparing the parent of every key with the directory. In a tree the keys under
a directory are its path and one more component, so a program that lists a directory, and then every
directory that was listed, meets every node once.
-/

namespace ZeroCpu.Sys

open Library

namespace ZeroFS

/-! ## Base names -/

/-- The path of an entry of a directory. -/
def childPath (dir name : Str) : Str :=
  if dir = Str.ofString "/" then kSlash :: name else dir ++ kSlash :: name

/-- The root is the path without components. -/
theorem joinComponents_eq_root {components : List Str} (h : IsPath components) :
    joinComponents components = Str.ofString "/" ↔ components = [] :=
  ⟨fun heq => joinComponents_injective h nofun heq, fun heq => by rw [heq]; rfl⟩

/-- The path of a child has one more component. -/
theorem childPath_joinComponents {components : List Str} (h : IsPath components) (name : Str) :
    childPath (joinComponents components) name = joinComponents (components ++ [name]) := by
  rw [childPath, joinComponents_concat]
  cases components with
  | nil => rfl
  | cons first rest =>
    have hne : first :: rest ≠ [] := List.cons_ne_nil first rest
    rw [if_neg fun heq => hne ((joinComponents_eq_root h).mp heq), joinComponents_of_ne_nil hne,
      List.append_assoc]
    rfl

/-- The base name of a path is its last component. -/
theorem baseName_joinComponents {components : List Str} {component : Str}
    (h : IsPath (components ++ [component])) :
    baseName (joinComponents (components ++ [component])) = component := by
  have hroot : joinComponents (components ++ [component]) ≠ Str.ofString "/" := fun heq =>
    absurd ((joinComponents_eq_root h).mp heq) (by simp)
  have hcomponent := h component (by simp)
  rw [baseName, if_neg hroot, joinComponents_concat, List.reverse_append, List.reverse_append,
    List.reverse_singleton, List.singleton_append,
    List.takeWhile_append_of_pos fun u hu => ?_, List.takeWhile_cons_of_neg (by simp),
    List.append_nil, List.reverse_reverse]
  have hne : u ≠ kSlash := fun heq => hcomponent.no_slash (heq ▸ List.mem_reverse.mp hu)
  simpa using hne

/-- A key of a tree is the join of components. -/
theorem Tree.key {fs : ZeroFS} (h : Tree fs) {key : Str} {node : ZeroFSNode}
    (hnode : fs.nodes.find? key = some node) :
    ∃ components, IsPath components ∧ key = joinComponents components :=
  normalizePath_eq_ok (h.normal key node hnode)

/-- The nodes whose parent is a directory are its path and one more component. -/
theorem Tree.child {fs : ZeroFS} (h : Tree fs) {components : List Str} (hdir : IsPath components)
    {key : Str} {node : ZeroFSNode} (hnode : fs.nodes.find? key = some node)
    (hroot : key ≠ Str.ofString "/") (hparent : parentPath key = joinComponents components) :
    IsPath (components ++ [baseName key]) ∧ key = joinComponents (components ++ [baseName key]) := by
  obtain ⟨whole, hwhole, rfl⟩ := h.key hnode
  rcases List.eq_nil_or_concat whole with rfl | ⟨first, last, rfl⟩
  · exact absurd rfl hroot
  · rw [List.concat_eq_append] at hwhole hparent ⊢
    rw [parentPath_joinComponents (hwhole last (by simp))] at hparent
    have hfirst : IsPath first := fun component hc => hwhole component (List.mem_append_left _ hc)
    obtain rfl := joinComponents_injective hfirst hdir hparent
    rw [baseName_joinComponents hwhole]
    exact ⟨hwhole, rfl⟩

/-! ## A listing -/

/-- The nodes whose base names `listDirectory` collects. -/
def entriesOf (fs : ZeroFS) (dir : Str) : List Str :=
  fs.nodes.keys.filter fun key => key ≠ Str.ofString "/" ∧ parentPath key = dir

/-- The entries of a directory are the nodes whose parent it is, the root apart. -/
theorem mem_entriesOf {fs : ZeroFS} {dir key : Str} :
    key ∈ fs.entriesOf dir
      ↔ (∃ node, fs.nodes.find? key = some node) ∧ key ≠ Str.ofString "/" ∧ parentPath key = dir := by
  rw [entriesOf, List.mem_filter, decide_eq_true_eq, SortedMap.mem_keys_iff, Option.isSome_iff_exists]

section Listing

variable {fs : ZeroFS} {components : List Str} {path : Str}

/-- Two nodes of a directory with one base name are one node. -/
theorem Tree.nodup_baseNames (h : Tree fs) (hcomponents : IsPath components) :
    ((fs.entriesOf (joinComponents components)).map baseName).Nodup := by
  have hkeys : fs.nodes.keys.Nodup :=
    List.pairwise_map.mpr (fs.nodes.sorted.imp fun hlt => ne_of_lt hlt)
  refine List.Nodup.map_on (fun a ha b hb heq => ?_) (hkeys.filter _)
  obtain ⟨⟨_, hnodeA⟩, hrootA, hparentA⟩ := mem_entriesOf.mp ha
  obtain ⟨⟨_, hnodeB⟩, hrootB, hparentB⟩ := mem_entriesOf.mp hb
  rw [(h.child hcomponents hnodeA hrootA hparentA).2,
    (h.child hcomponents hnodeB hrootB hparentB).2, heq]

/-- The listing of a directory: the names under which it has nodes, in order. -/
theorem listDirectory_spec (h : Tree fs) (hcomponents : IsPath components)
    (hpath : normalizePath path = .ok (joinComponents components))
    (hdir : IsDirectory fs (joinComponents components)) :
    ∃ names, fs.listDirectory path = .ok names ∧ names.Pairwise (· < ·)
      ∧ ∀ name, name ∈ names ↔ IsPath (components ++ [name])
          ∧ ∃ node, fs.nodes.find? (joinComponents (components ++ [name])) = some node := by
  obtain ⟨dir, hfind, htype⟩ := hdir
  let names := (fs.entriesOf (joinComponents components)).map baseName
  refine ⟨names.insertionSort (· ≤ ·), ?_, ?_, fun name => ?_⟩
  · rw [listDirectory, hpath, ok_bind, requireNode, hfind, ok_bind, if_neg (not_not.mpr htype)]
    rfl
  · have hsorted := List.pairwise_insertionSort (· ≤ ·) names
    have hnodup : (names.insertionSort (· ≤ ·)).Nodup :=
      (List.perm_insertionSort (· ≤ ·) names).nodup_iff.mpr (h.nodup_baseNames hcomponents)
    exact hsorted.imp₂ (fun _ _ hle hne => lt_of_le_of_ne hle hne) hnodup
  · rw [List.mem_insertionSort, List.mem_map]
    constructor
    · rintro ⟨key, hkey, rfl⟩
      obtain ⟨⟨node, hnode⟩, hroot, hparent⟩ := mem_entriesOf.mp hkey
      obtain ⟨hchild, heq⟩ := h.child hcomponents hnode hroot hparent
      exact ⟨hchild, node, heq ▸ hnode⟩
    · rintro ⟨hchild, node, hnode⟩
      refine ⟨_, mem_entriesOf.mpr ⟨⟨node, hnode⟩, ?_, ?_⟩, baseName_joinComponents hchild⟩
      · exact fun heq => absurd ((joinComponents_eq_root hchild).mp heq) (by simp)
      · exact parentPath_joinComponents (hchild name (by simp))

end Listing

/-! ## The walk -/

/-- Visit a node, and what is below it when it is a directory. -/
def visit (fs : ZeroFS) (below : Str → Option (List (Str × ZeroFSNodeType))) (path : Str) :
    Option (List (Str × ZeroFSNodeType)) := do
  let found ← (fs.stat path).toOption
  if found.type = .Directory then do
    let visits ← below path
    pure ((path, .Directory) :: visits)
  else pure [(path, found.type)]

/-- The walk that lists a directory and descends into every directory that it lists; `none` when the
fuel is used up or a call throws. -/
def walk (fs : ZeroFS) : ℕ → Str → Option (List (Str × ZeroFSNodeType))
  | 0, _ => none
  | fuel + 1, dir => do
      let names ← (fs.listDirectory dir).toOption
      let visits ← names.mapM fun name => fs.visit (fs.walk fuel) (childPath dir name)
      pure visits.flatten

/-- The visits are the nodes at and below a path, or only those below it. -/
structure Visited (fs : ZeroFS) (components : List Str) (proper : Bool)
    (visits : List (Str × ZeroFSNodeType)) : Prop where
  nodup : (visits.map Prod.fst).Nodup
  mem : ∀ path type, (path, type) ∈ visits ↔ ∃ others node, (proper = true → others ≠ [])
    ∧ IsPath (components ++ others) ∧ path = joinComponents (components ++ others)
    ∧ fs.nodes.find? path = some node ∧ node.type = type

/-- Every node below a path is fewer than this many components away. -/
def DepthBelow (fs : ZeroFS) (components : List Str) (depth : ℕ) : Prop :=
  ∀ others node, IsPath (components ++ others) →
    fs.nodes.find? (joinComponents (components ++ others)) = some node → others.length < depth

section Walk

variable {fs : ZeroFS} {components : List Str}

/-- Where `f` always answers, mapping it in `Option` is mapping its answers. -/
theorem mapM_eq_some_map {α β : Type} {f : α → Option β} {g : α → β} {xs : List α}
    (h : ∀ x ∈ xs, f x = some (g x)) : xs.mapM f = some (xs.map g) := by
  induction xs with
  | nil => rfl
  | cons x xs ih =>
    rw [List.mapM_cons, h x List.mem_cons_self, ih fun y hy => h y (List.mem_cons_of_mem _ hy)]
    rfl

/-- A function that answers more often maps to the same list. -/
theorem mapM_mono {α β : Type} {f g : α → Option β} (h : ∀ x y, f x = some y → g x = some y)
    {xs : List α} {ys : List β} (hmap : xs.mapM f = some ys) : xs.mapM g = some ys := by
  induction xs generalizing ys with
  | nil => exact hmap
  | cons x xs ih =>
    simp only [List.mapM_cons, Option.bind_eq_bind, Option.bind_eq_some_iff] at hmap ⊢
    obtain ⟨y, hy, rest, hrest, hys⟩ := hmap
    exact ⟨y, h x y hy, rest, ih hrest, hys⟩

/-- More fuel changes nothing. -/
theorem walk_succ {fuel : ℕ} {dir : Str} {visits : List (Str × ZeroFSNodeType)}
    (h : fs.walk fuel dir = some visits) : fs.walk (fuel + 1) dir = some visits := by
  induction fuel generalizing dir visits with
  | zero => cases h
  | succ fuel ih =>
    rw [walk] at h ⊢
    simp only [Option.bind_eq_bind, Option.bind_eq_some_iff] at h ⊢
    obtain ⟨names, hnames, blocks, hblocks, hvisits⟩ := h
    refine ⟨names, hnames, blocks, mapM_mono (fun name block hblock => ?_) hblocks, hvisits⟩
    simp only [visit, Option.bind_eq_bind, Option.bind_eq_some_iff] at hblock ⊢
    obtain ⟨found, hfound, hblock⟩ := hblock
    refine ⟨found, hfound, ?_⟩
    split_ifs at hblock ⊢ with htype
    · obtain ⟨below, hbelow, hpure⟩ := Option.bind_eq_some_iff.mp hblock
      exact Option.bind_eq_some_iff.mpr ⟨below, ih hbelow, hpure⟩
    · exact hblock

/-- More fuel finds the same walk. -/
theorem walk_of_le {fuel more : ℕ} {dir : Str} {visits : List (Str × ZeroFSNodeType)}
    (hle : fuel ≤ more) (h : fs.walk fuel dir = some visits) : fs.walk more dir = some visits := by
  induction more, hle using Nat.le_induction with
  | base => exact h
  | succ more _ ih => exact walk_succ ih

/-- Visiting a node visits it and what is below it. -/
theorem visit_spec {below : Str → Option (List (Str × ZeroFSNodeType))} (h : Tree fs)
    (hcomponents : IsPath components) {node : ZeroFSNode}
    (hnode : fs.nodes.find? (joinComponents components) = some node)
    (hbelow : node.type = .Directory →
      ∃ visits, below (joinComponents components) = some visits ∧ Visited fs components true visits) :
    ∃ visits, fs.visit below (joinComponents components) = some visits
      ∧ Visited fs components false visits := by
  have hstat : (fs.stat (joinComponents components)).toOption
      = some ⟨node.type, if node.type = .File then node.data.length else 0⟩ := by
    rw [stat, normalizePath_joinComponents hcomponents, ok_bind, requireNode, hnode]
    rfl
  by_cases htype : node.type = .Directory
  · obtain ⟨visits, hrun, hvisited⟩ := hbelow htype
    refine ⟨(joinComponents components, .Directory) :: visits, ?_, ?_, fun path type => ?_⟩
    · simp only [visit, hstat, Option.bind_eq_bind, Option.bind_some, htype, if_true, hrun]
      rfl
    · refine List.nodup_cons.mpr ⟨fun hmem => ?_, hvisited.nodup⟩
      obtain ⟨⟨path, type⟩, hvisit, hpath⟩ := List.mem_map.mp hmem
      obtain ⟨others, _, hproper, hothers, heq, -⟩ := (hvisited.mem path type).mp hvisit
      have hlist := joinComponents_injective hothers hcomponents (heq.symm.trans hpath)
      exact hproper rfl (List.append_right_eq_self.mp hlist)
    · rw [List.mem_cons, Prod.mk.injEq, hvisited.mem]
      constructor
      · rintro (⟨rfl, rfl⟩ | ⟨others, other, hproper, hrest⟩)
        · exact ⟨[], node, Bool.noConfusion, by simpa using hcomponents, by simp, hnode, htype⟩
        · exact ⟨others, other, Bool.noConfusion, hrest⟩
      · rintro ⟨others, other, -, hothers, hpath, hother, hty⟩
        by_cases hnil : others = []
        · subst hnil
          rw [List.append_nil] at hpath
          subst hpath
          obtain rfl : node = other := Option.some.inj (hnode.symm.trans hother)
          exact .inl ⟨rfl, hty.symm.trans htype⟩
        · exact .inr ⟨others, other, fun _ => hnil, hothers, hpath, hother, hty⟩
  · refine ⟨[(joinComponents components, node.type)], ?_, by simp, fun path type => ?_⟩
    · simp only [visit, hstat, Option.bind_eq_bind, Option.bind_some, htype, if_false]
      rfl
    · rw [List.mem_singleton, Prod.mk.injEq]
      constructor
      · rintro ⟨rfl, rfl⟩
        exact ⟨[], node, Bool.noConfusion, by simpa using hcomponents, by simp, hnode, rfl⟩
      · rintro ⟨others, other, -, hothers, rfl, hother, rfl⟩
        -- Nothing is below a file.
        by_cases hnil : others = []
        · subst hnil
          rw [List.append_nil] at hother ⊢
          obtain rfl : node = other := Option.some.inj (hnode.symm.trans hother)
          exact ⟨rfl, rfl⟩
        · obtain ⟨dir, hdir, hdirtype⟩ := h.ancestor components others hnil hothers hother
          obtain rfl : node = dir := Option.some.inj (hnode.symm.trans hdir)
          exact absurd hdirtype htype

/-- With fuel for the depth of the tree the walk below a directory visits every node below it. -/
theorem walk_spec (h : Tree fs) {fuel : ℕ} (hcomponents : IsPath components)
    (hdir : IsDirectory fs (joinComponents components)) (hdepth : DepthBelow fs components fuel) :
    ∃ visits, fs.walk fuel (joinComponents components) = some visits
      ∧ Visited fs components true visits := by
  induction fuel generalizing components with
  | zero =>
    obtain ⟨dir, hfind, -⟩ := hdir
    exact absurd (hdepth [] dir (by simpa using hcomponents) (by simpa using hfind)) (Nat.lt_irrefl 0)
  | succ fuel ih =>
    obtain ⟨names, hlist, hascending, hnames⟩ :=
      listDirectory_spec h hcomponents (normalizePath_joinComponents hcomponents) hdir
    have hvisit : ∀ name ∈ names, ∃ visits,
        fs.visit (fs.walk fuel) (childPath (joinComponents components) name) = some visits
          ∧ Visited fs (components ++ [name]) false visits := by
      intro name hname
      obtain ⟨hchild, node, hnode⟩ := (hnames name).mp hname
      rw [childPath_joinComponents hcomponents]
      refine visit_spec h hchild hnode fun htype => ih hchild ⟨node, hnode, htype⟩ ?_
      intro others other hothers hother
      rw [List.append_assoc, List.singleton_append] at hothers hother
      exact Nat.lt_of_succ_lt_succ (hdepth (name :: others) other hothers hother)
    choose! block hrun hvisited using hvisit
    refine ⟨names.flatMap block, ?_, ?_, fun path type => ?_⟩
    · simp only [walk, hlist, Except.toOption, Option.bind_eq_bind, Option.bind_some,
        mapM_eq_some_map hrun]
      rfl
    · rw [List.map_flatMap, List.nodup_flatMap]
      refine ⟨fun name hname => (hvisited name hname).nodup, ?_⟩
      -- Paths below different names differ in the component that follows the directory.
      refine hascending.imp_of_mem fun {first second} hfirst hsecond hlt => ?_
      intro path hpath hpath'
      obtain ⟨⟨_, type⟩, hvisit, rfl⟩ := List.mem_map.mp hpath
      obtain ⟨⟨_, type'⟩, hvisit', heq⟩ := List.mem_map.mp hpath'
      obtain ⟨others, _, -, hothers, hleft, -⟩ := ((hvisited first hfirst).mem _ _).mp hvisit
      obtain ⟨others', _, -, hothers', hright, -⟩ := ((hvisited second hsecond).mem _ _).mp hvisit'
      have hlists := joinComponents_injective hothers hothers'
        (hleft.symm.trans (heq.symm.trans hright))
      rw [List.append_assoc, List.append_assoc] at hlists
      have hnames := List.append_cancel_left hlists
      exact absurd (List.cons.inj hnames).1 (ne_of_lt hlt)
    · rw [List.mem_flatMap]
      constructor
      · rintro ⟨name, hname, hvisit⟩
        obtain ⟨others, node, -, hothers, rfl, hrest⟩ := ((hvisited name hname).mem _ _).mp hvisit
        rw [List.append_assoc, List.singleton_append] at hothers hrest ⊢
        exact ⟨name :: others, node, fun _ => List.cons_ne_nil _ _, hothers, rfl, hrest⟩
      · rintro ⟨others, node, hproper, hothers, rfl, hnode, htype⟩
        cases others with
        | nil => exact absurd rfl (hproper rfl)
        | cons name others =>
          have hchild := hothers.concat
          have hname : name ∈ names := by
            refine (hnames name).mpr ⟨hchild, ?_⟩
            by_cases hnil : others = []
            · rw [hnil] at hnode
              exact ⟨node, hnode⟩
            · have hpath : IsPath (components ++ [name] ++ others) := by simpa using hothers
              have hbelow : fs.nodes.find? (joinComponents (components ++ [name] ++ others))
                  = some node := by simpa using hnode
              obtain ⟨dir, hdir, -⟩ := h.ancestor _ _ hnil hpath hbelow
              exact ⟨dir, hdir⟩
          refine ⟨name, hname, ((hvisited name hname).mem _ _).mpr ⟨others, node, nofun, ?_, ?_, ?_⟩⟩
          · simpa using hothers
          · simp
          · exact ⟨by simpa using hnode, htype⟩

/-- Keys are at most as long as all keys together, and a component needs a byte. -/
theorem exists_depthBelow (fs : ZeroFS) (components : List Str) :
    ∃ depth, DepthBelow fs components depth := by
  refine ⟨(fs.nodes.keys.map List.length).sum + 1, fun others node hothers hnode => ?_⟩
  have hkey : joinComponents (components ++ others) ∈ fs.nodes.keys :=
    (SortedMap.mem_keys_iff _ _).mpr (by rw [hnode]; rfl)
  have hlong := List.le_sum_of_mem (List.mem_map_of_mem (f := List.length) hkey)
  have hcount : ∀ cs : List Str, cs.length ≤ (flat cs).length := by
    intro cs
    induction cs with
    | nil => exact Nat.le_refl 0
    | cons component rest ih =>
      have hflat : flat (component :: rest) = kSlash :: component ++ flat rest := rfl
      rw [hflat, List.length_append, List.length_cons, List.length_cons]
      omega
  by_cases hnil : components ++ others = []
  · rw [(List.append_eq_nil_iff.mp hnil).2, List.length_nil]
    omega
  · have hwhole := hcount (components ++ others)
    rw [← joinComponents_of_ne_nil hnil, List.length_append] at hwhole
    omega

end Walk

/-! ## Exactness -/

section Exact

variable {fs : ZeroFS} {visits : List (Str × ZeroFSNodeType)}

/-- The walk from the root visits the nodes other than the root. -/
theorem Visited.mem_root (h : Tree fs) (hvisited : Visited fs [] true visits) (path : Str)
    (type : ZeroFSNodeType) :
    (path, type) ∈ visits ↔ path ≠ Str.ofString "/"
      ∧ ∃ node, fs.nodes.find? path = some node ∧ node.type = type := by
  rw [hvisited.mem]
  constructor
  · rintro ⟨others, node, hproper, hothers, rfl, hnode, htype⟩
    rw [List.nil_append] at hothers hnode ⊢
    exact ⟨fun heq => hproper rfl ((joinComponents_eq_root hothers).mp heq), node, hnode, htype⟩
  · rintro ⟨hroot, node, hnode, htype⟩
    obtain ⟨components, hcomponents, rfl⟩ := h.key hnode
    refine ⟨components, node, fun _ hnil => hroot ?_, hcomponents, rfl, hnode, htype⟩
    exact (joinComponents_eq_root hcomponents).mpr hnil

/-- The root and the visits are the nodes. -/
theorem Visited.perm (h : Tree fs) (hvisited : Visited fs [] true visits) :
    ((Str.ofString "/", .Directory) :: visits).Perm
      (fs.nodes.entries.map fun entry => (entry.1, entry.2.type)) := by
  have hkeys : fs.nodes.keys.Nodup :=
    List.pairwise_map.mpr (fs.nodes.sorted.imp fun hlt => ne_of_lt hlt)
  have hentries : (fs.nodes.entries.map fun entry => (entry.1, entry.2.type)).Nodup := by
    refine List.Nodup.of_map Prod.fst ?_
    rw [List.map_map]
    exact hkeys
  have hvisits : ((Str.ofString "/", ZeroFSNodeType.Directory) :: visits).Nodup := by
    refine List.nodup_cons.mpr ⟨fun hmem => ?_, List.Nodup.of_map Prod.fst hvisited.nodup⟩
    exact ((hvisited.mem_root h _ _).mp hmem).1 rfl
  -- Neither list has a double, so it is enough that they have the same members.
  refine (List.perm_ext_iff_of_nodup hvisits hentries).mpr fun visit => ?_
  obtain ⟨path, type⟩ := visit
  have hentry : (path, type) ∈ (fs.nodes.entries.map fun entry => (entry.1, entry.2.type))
      ↔ ∃ node, fs.nodes.find? path = some node ∧ node.type = type := by
    rw [List.mem_map]
    constructor
    · rintro ⟨⟨key, node⟩, hmem, heq⟩
      obtain ⟨rfl, rfl⟩ := Prod.mk.inj heq
      exact ⟨node, fs.nodes.find?_of_mem hmem, rfl⟩
    · rintro ⟨node, hnode, rfl⟩
      exact ⟨(path, node), fs.nodes.mem_of_find? hnode, rfl⟩
  rw [List.mem_cons, hentry, hvisited.mem_root h, Prod.mk.injEq]
  obtain ⟨root, hroot, hrootType⟩ := h.root
  constructor
  · rintro (⟨rfl, rfl⟩ | ⟨-, hnode⟩)
    · exact ⟨root, hroot, hrootType⟩
    · exact hnode
  · rintro ⟨node, hnode, rfl⟩
    by_cases hpath : path = Str.ofString "/"
    · subst hpath
      obtain rfl : root = node := Option.some.inj (hroot.symm.trans hnode)
      exact .inl ⟨rfl, hrootType⟩
    · exact .inr ⟨hpath, node, hnode, rfl⟩

/-- The counters count what the walk visits, and the root. -/
theorem Visited.counts (h : Tree fs) (hvisited : Visited fs [] true visits) :
    fs.fileCount = visits.countP (fun visit => visit.2 = .File)
      ∧ fs.directoryCount = visits.countP (fun visit => visit.2 = .Directory) + 1 := by
  have hcount : ∀ type : ZeroFSNodeType,
      fs.nodes.entries.countP (fun entry => entry.2.type = type)
        = ((Str.ofString "/", ZeroFSNodeType.Directory) :: visits).countP
            fun visit => visit.2 = type := by
    intro type
    rw [(hvisited.perm h).countP_eq, List.countP_map]
    rfl
  refine ⟨(hcount .File).trans ?_, (hcount .Directory).trans ?_⟩
  · rw [List.countP_cons_of_neg (by simp)]
  · rw [List.countP_cons_of_pos (by simp)]

end Exact

/-- In every file system that calls on a fresh one lead to: a listing is the strictly ascending list
of the base names of the nodes under the directory, a name in it joined to the directory is such a
node, and the walk from the root ends, visits every node but the root once, and counts what the
counters count. -/
theorem listing_exact :
    ∃ fresh, ZeroFS.new = .ok fresh ∧ ∀ calls,
      let fs := ZeroFSCall.runCalls calls fresh
      (∀ path dir, normalizePath path = .ok dir → IsDirectory fs dir →
        ∃ names, fs.listDirectory path = .ok names ∧ names.Pairwise (· < ·)
          ∧ (∀ name, name ∈ names ↔ ∃ key node, fs.nodes.find? key = some node
              ∧ key ≠ Str.ofString "/" ∧ parentPath key = dir ∧ baseName key = name)
          ∧ ∀ key node, fs.nodes.find? key = some node → key ≠ Str.ofString "/" →
              parentPath key = dir → childPath dir (baseName key) = key)
        ∧ ∃ depth visits, (∀ fuel ≥ depth, fs.walk fuel "/" = some visits)
          ∧ (visits.map Prod.fst).Nodup
          ∧ (∀ path type, (path, type) ∈ visits ↔ path ≠ Str.ofString "/"
              ∧ ∃ node, fs.nodes.find? path = some node ∧ node.type = type)
          ∧ fs.fileCount = visits.countP (fun visit => visit.2 = .File)
          ∧ fs.directoryCount = visits.countP (fun visit => visit.2 = .Directory) + 1 := by
  obtain ⟨fresh, hfresh⟩ := ZeroFSCall.exists_new
  refine ⟨fresh, hfresh, fun calls => ?_⟩
  have htree : Tree (ZeroFSCall.runCalls calls fresh) :=
    ZeroFSCall.tree_runCalls (ZeroFSCall.tree_new hfresh) calls
  intro fs
  refine ⟨fun path dir hpath hdir => ?_, ?_⟩
  · obtain ⟨components, hcomponents, rfl⟩ := normalizePath_eq_ok hpath
    obtain ⟨names, hlist, hascending, hnames⟩ := listDirectory_spec htree hcomponents hpath hdir
    refine ⟨names, hlist, hascending, fun name => ?_, fun key node hnode hroot hparent => ?_⟩
    · rw [hnames]
      constructor
      · rintro ⟨hchild, node, hnode⟩
        refine ⟨_, node, hnode, fun heq => ?_, parentPath_joinComponents (hchild name (by simp)),
          baseName_joinComponents hchild⟩
        exact absurd ((joinComponents_eq_root hchild).mp heq) (by simp)
      · rintro ⟨key, node, hnode, hroot, hparent, rfl⟩
        obtain ⟨hchild, heq⟩ := htree.child hcomponents hnode hroot hparent
        exact ⟨hchild, node, heq ▸ hnode⟩
    · rw [childPath_joinComponents hcomponents]
      exact (htree.child hcomponents hnode hroot hparent).2.symm
  -- The walk ends because no path is deeper than the longest in the map.
  · obtain ⟨depth, hdepth⟩ := exists_depthBelow fs []
    obtain ⟨visits, hrun, hvisited⟩ :=
      @walk_spec fs [] htree depth nofun htree.root hdepth
    obtain ⟨hfiles, hdirectories⟩ := hvisited.counts htree
    exact ⟨depth, visits, fun fuel hfuel => walk_of_le hfuel hrun, hvisited.nodup,
      hvisited.mem_root htree, hfiles, hdirectories⟩

end ZeroFS

end ZeroCpu.Sys
