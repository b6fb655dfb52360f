import ZeroCpu.Library.Sparse
import ZeroCpu.System.ZeroFsTree

/-!
# What is read after a write

Reference: `ZeroFS::readFile`, `ZeroFS::writeFile` and `ZeroFS::stat` in `src/system/ZeroFS.cpp`.

A file is a sparse byte string: a write is a patch of it, and the two steps in which the code grows
the file leave zeros where nothing was written. Paths that normalize alike name the same file.
-/

namespace ZeroCpu.Sys

open Library

namespace ZeroFS

/-! ## Bytes -/

/-- Growing never shrinks. -/
theorem length_grow (data : List UInt8) (size : ℕ) : (grow data size).length = max data.length size := by
  rw [grow]
  split_ifs with h
  · rw [List.length_append, List.length_replicate]
    omega
  · omega

/-- The bytes that are added read as zero, as those past the end do. -/
theorem getD_grow (data : List UInt8) (size i : ℕ) : (grow data size).getD i 0 = data.getD i 0 := by
  rw [grow]
  split_ifs
  · by_cases hi : i < data.length
    · rw [List.getD_append _ _ _ _ hi]
    · rw [List.getD_append_right _ _ _ _ (not_lt.mp hi), List.getD_eq_default _ _ (not_lt.mp hi)]
      by_cases hj : i - data.length < (List.replicate (size - data.length) (0 : UInt8)).length
      · rw [List.getD_eq_getElem _ _ hj, List.getElem_replicate]
      · rw [List.getD_eq_default _ _ (not_lt.mp hj)]
  · rfl

/-- A write patches the byte string. -/
theorem ofList_overwrite (old : List UInt8) (offset : ℕ) (data : List UInt8) :
    Sparse.ofList 0 (overwrite old offset data) = (Sparse.ofList 0 old).write ⟨offset, data⟩ := by
  have hlength : (grow (grow old offset) (offset + data.length)).length
      = max old.length (offset + data.length) := by
    rw [length_grow, length_grow]
    omega
  -- Growing twice fills with zeros up to the later end.
  have hget := fun i => (getD_grow (grow old offset) (offset + data.length) i).trans
    (getD_grow old offset i)
  have htake : ((grow (grow old offset) (offset + data.length)).take offset).length = offset := by
    rw [List.length_take, hlength]
    omega
  refine Sparse.ext ?_ (funext fun i => ?_)
  · show (overwrite old offset data).length = max old.length (offset + data.length)
    rw [overwrite, List.length_append, List.length_append, htake, List.length_drop, hlength]
    omega
  · show (overwrite old offset data).getD i 0
      = if offset ≤ i ∧ i < offset + data.length then data.getD (i - offset) 0 else old.getD i 0
    rw [overwrite, ← hget]
    generalize hgrown : grow (grow old offset) (offset + data.length) = grown at htake
    by_cases hbefore : i < offset
    · rw [if_neg (by omega), List.append_assoc, List.getD_append _ _ _ _ (by omega)]
      simp [List.getD_eq_getElem?_getD, hbefore]
    · by_cases hinside : i < offset + data.length
      · rw [if_pos ⟨not_lt.mp hbefore, hinside⟩, List.append_assoc,
          List.getD_append_right _ _ _ _ (by omega), List.getD_append _ _ _ _ (by omega), htake]
      · have hfront : (grown.take offset ++ data).length = offset + data.length := by
          rw [List.length_append, htake]
        rw [if_neg (by omega), List.getD_append_right _ _ _ _ (by omega), hfront]
        simp only [List.getD_eq_getElem?_getD, List.getElem?_drop]
        rw [Nat.add_sub_cancel' (not_lt.mp hinside)]

/-- The bytes `[offset, min(offset + count, size))`. -/
def bytesAt (data : List UInt8) (offset count : ℕ) : List UInt8 :=
  if count = kReadToEnd then data.drop offset
  else (data.take (min (offset + count) data.length)).drop offset

/-! ## Files -/

/-- A file is required exactly where there is one. -/
theorem requireFile_eq_ok {fs : ZeroFS} {normalized : Str} {node : ZeroFSNode} :
    fs.requireFile normalized = .ok node
      ↔ fs.nodes.find? normalized = some node ∧ node.type = .File := by
  simp only [requireFile, requireNode, bind_eq_ok]
  constructor
  · rintro ⟨found, hfound, h⟩
    cases hfind : fs.nodes.find? normalized with
    | none =>
      rw [hfind] at hfound
      cases hfound
    | some other =>
      rw [hfind] at hfound
      obtain rfl := Except.ok.inj hfound
      split_ifs at h with htype
      · cases h
      · obtain rfl := Except.ok.inj h
        cases hnode : other.type with
        | File => exact ⟨rfl, rfl⟩
        | Directory => exact absurd hnode htype
  · rintro ⟨hfind, htype⟩
    refine ⟨node, by rw [hfind], ?_⟩
    rw [if_neg (by rw [htype]; decide)]
    rfl

/-- Reading is taking the bytes of the file. -/
theorem readFile_of_requireFile {fs : ZeroFS} {path normalized : Str} {node : ZeroFSNode}
    (hpath : normalizePath path = .ok normalized) (hfile : fs.requireFile normalized = .ok node)
    (offset count : ℕ) : fs.readFile path offset count = .ok (bytesAt node.data offset count) := by
  rw [readFile, hpath, ok_bind, hfile, ok_bind, bytesAt]
  split_ifs with hpast hend hend
  · rw [List.drop_eq_nil_of_le hpast]
    rfl
  · rw [List.drop_eq_nil_of_le ((List.length_take_le _ _).trans (by omega))]
    rfl
  · have htake : (node.data.drop offset).take (node.data.length - offset) = node.data.drop offset :=
      List.take_of_length_le (by rw [List.length_drop])
    simp only [htake]
    rfl
  · have htake : (node.data.drop offset).take (min count (node.data.length - offset))
        = (node.data.take (min (offset + count) node.data.length)).drop offset := by
      rw [List.take_drop]
      congr 2
      omega
    simp only [htake]
    rfl

/-- The status of a file. -/
theorem stat_of_requireFile {fs : ZeroFS} {path normalized : Str} {node : ZeroFSNode}
    (hpath : normalizePath path = .ok normalized) (hfile : fs.requireFile normalized = .ok node) :
    fs.stat path = .ok ⟨.File, node.data.length⟩ := by
  obtain ⟨hfind, htype⟩ := requireFile_eq_ok.mp hfile
  rw [stat, hpath, ok_bind, requireNode, hfind, ok_bind, htype, if_pos rfl]
  rfl

/-- A write returns exactly when the file is there and its end is a size. -/
theorem writeFile_eq_ok {fs fs' : ZeroFS} {path : Str} {offset : ℕ} {data : List UInt8} :
    fs.writeFile path offset data = .ok fs'
      ↔ ∃ normalized node, normalizePath path = .ok normalized
          ∧ fs.requireFile normalized = .ok node ∧ data.length ≤ Binary.sizeMax - offset
          ∧ fs' = ⟨fs.nodes.modify normalized fun _ =>
              { node with data := overwrite node.data offset data }⟩ := by
  simp only [writeFile, bind_eq_ok]
  constructor
  · rintro ⟨normalized, hpath, node, hfile, h⟩
    split_ifs at h with hlarge
    · cases h
    · exact ⟨normalized, node, hpath, hfile, not_lt.mp hlarge, (Except.ok.inj h).symm⟩
  · rintro ⟨normalized, node, hpath, hfile, hsize, rfl⟩
    refine ⟨normalized, hpath, node, hfile, ?_⟩
    rw [if_neg (not_lt.mpr hsize)]
    rfl

/-- The path names a file with these bytes. -/
def FileAt (fs : ZeroFS) (path : Str) (data : List UInt8) : Prop :=
  ∃ normalized node, normalizePath path = .ok normalized ∧ fs.requireFile normalized = .ok node
    ∧ node.data = data

namespace FileAt

variable {fs fs' : ZeroFS} {path other : Str} {old data : List UInt8} {offset : ℕ}

theorem stat (h : FileAt fs path data) : fs.stat path = .ok ⟨.File, data.length⟩ := by
  obtain ⟨normalized, node, hpath, hfile, rfl⟩ := h
  exact stat_of_requireFile hpath hfile

/-- A read of a file returns its bytes. -/
theorem readFile (h : FileAt fs path data) (offset count : ℕ) :
    fs.readFile path offset count = .ok (bytesAt data offset count) := by
  obtain ⟨normalized, node, hpath, hfile, rfl⟩ := h
  exact readFile_of_requireFile hpath hfile offset count

/-- What can be read is a file. -/
theorem of_readFile {offset count : ℕ} {bytes : List UInt8}
    (h : fs.readFile path offset count = .ok bytes) : ∃ data, FileAt fs path data := by
  simp only [ZeroFS.readFile, bind_eq_ok] at h
  obtain ⟨normalized, hpath, node, hfile, -⟩ := h
  exact ⟨node.data, normalized, node, hpath, hfile, rfl⟩

theorem of_writeFile (h : fs.writeFile path offset data = .ok fs') : ∃ old, FileAt fs path old := by
  obtain ⟨normalized, node, hpath, hfile, -, -⟩ := writeFile_eq_ok.mp h
  exact ⟨node.data, normalized, node, hpath, hfile, rfl⟩

/-- Paths that mean the same name the same file. -/
theorem congr (hsame : normalizePath other = normalizePath path) (h : FileAt fs path data) :
    FileAt fs other data := by
  obtain ⟨normalized, node, hpath, hfile, hdata⟩ := h
  exact ⟨normalized, node, hsame.trans hpath, hfile, hdata⟩

/-- A write patches the file that it names. -/
theorem writeFile_same (h : FileAt fs other old) (hsame : normalizePath other = normalizePath path)
    (hwrite : fs.writeFile path offset data = .ok fs') : FileAt fs' other (overwrite old offset data) := by
  obtain ⟨normalized, node, hpath, hfile, -, rfl⟩ := writeFile_eq_ok.mp hwrite
  obtain ⟨normalized', node', hother, hfile', rfl⟩ := h
  obtain rfl : normalized' = normalized := Except.ok.inj (hother.symm.trans (hsame.trans hpath))
  obtain rfl : node' = node := Except.ok.inj (hfile'.symm.trans hfile)
  refine ⟨normalized', { node' with data := overwrite node'.data offset data }, hother, ?_, rfl⟩
  obtain ⟨hfind, htype⟩ := requireFile_eq_ok.mp hfile
  refine requireFile_eq_ok.mpr ⟨?_, htype⟩
  rw [SortedMap.find?_modify, if_pos rfl, hfind]
  rfl

end FileAt

section Write

variable {fs fs' : ZeroFS} {path other : Str} {offset : ℕ} {data : List UInt8}

/-- A write leaves every other node alone. -/
theorem requireNode_writeFile_of_ne (hwrite : fs.writeFile path offset data = .ok fs')
    {normalized : Str} (hne : normalizePath path ≠ .ok normalized) :
    fs'.requireNode normalized = fs.requireNode normalized := by
  obtain ⟨written, node, hpath, -, -, rfl⟩ := writeFile_eq_ok.mp hwrite
  have hother : normalized ≠ written := fun heq => hne (heq ▸ hpath)
  simp only [requireNode, SortedMap.find?_modify, hother, if_false]

/-- A write leaves the status of other paths alone. -/
theorem stat_writeFile_of_ne (hwrite : fs.writeFile path offset data = .ok fs')
    (hne : normalizePath other ≠ normalizePath path) : fs'.stat other = fs.stat other := by
  rw [stat, stat]
  cases hother : normalizePath other with
  | error e => rfl
  | ok normalized =>
    rw [ok_bind, ok_bind, requireNode_writeFile_of_ne hwrite fun h => hne (hother.trans h.symm)]

/-- A write leaves the contents of other paths alone. -/
theorem readFile_writeFile_of_ne (hwrite : fs.writeFile path offset data = .ok fs')
    (hne : normalizePath other ≠ normalizePath path) (a n : ℕ) :
    fs'.readFile other a n = fs.readFile other a n := by
  rw [readFile, readFile]
  cases hother : normalizePath other with
  | error e => rfl
  | ok normalized =>
    rw [ok_bind, ok_bind, requireFile, requireFile,
      requireNode_writeFile_of_ne hwrite fun h => hne (hother.trans h.symm)]

/-- A write leaves other files alone. -/
theorem FileAt.writeFile_of_ne {old : List UInt8} (h : FileAt fs other old)
    (hne : normalizePath other ≠ normalizePath path)
    (hwrite : fs.writeFile path offset data = .ok fs') : FileAt fs' other old := by
  obtain ⟨normalized, node, hother, hfile, hdata⟩ := h
  refine ⟨normalized, node, hother, ?_, hdata⟩
  rw [requireFile, requireNode_writeFile_of_ne hwrite fun h => hne (hother.trans h.symm)]
  exact hfile

/-- Two writes to one file in one step. -/
theorem writeFile_writeFile {first second : Patch UInt8} {fs₁ fs₂ : ZeroFS}
    (hsame : normalizePath other = normalizePath path)
    (hfirst : fs.writeFile path first.offset first.data = .ok fs₁)
    (hsecond : fs₁.writeFile other second.offset second.data = .ok fs₂) :
    ∃ normalized node, normalizePath path = .ok normalized ∧ fs.requireFile normalized = .ok node
      ∧ first.data.length ≤ Binary.sizeMax - first.offset
      ∧ second.data.length ≤ Binary.sizeMax - second.offset
      ∧ fs₂ = ⟨fs.nodes.modify normalized fun _ => { node with
          data := overwrite (overwrite node.data first.offset first.data) second.offset second.data }⟩ := by
  obtain ⟨normalized, node, hpath, hfile, hsize, rfl⟩ := writeFile_eq_ok.mp hfirst
  obtain ⟨normalized', node', hother, hfile', hsize', rfl⟩ := writeFile_eq_ok.mp hsecond
  obtain rfl : normalized' = normalized := Except.ok.inj (hother.symm.trans (hsame.trans hpath))
  refine ⟨normalized', node, hpath, hfile, hsize, hsize', ?_⟩
  have hmodified := (requireFile_eq_ok.mp hfile').1
  rw [SortedMap.find?_modify, if_pos rfl, (requireFile_eq_ok.mp hfile).1] at hmodified
  obtain rfl := Option.some.inj hmodified
  rw [SortedMap.modify_modify]
  rfl

/-- Writes to one file at disjoint ranges commute. -/
theorem writeFile_comm {first second : Patch UInt8} {fs₁ fs₂ : ZeroFS}
    (hsame : normalizePath other = normalizePath path) (hdisjoint : first.Disjoint second)
    (hfirst : fs.writeFile path first.offset first.data = .ok fs₁)
    (hsecond : fs₁.writeFile other second.offset second.data = .ok fs₂) :
    ∃ mid, fs.writeFile other second.offset second.data = .ok mid
      ∧ mid.writeFile path first.offset first.data = .ok fs₂ := by
  obtain ⟨normalized, node, hpath, hfile, hsize, hsize', rfl⟩ :=
    writeFile_writeFile hsame hfirst hsecond
  have hmid := writeFile_eq_ok.mpr
    ⟨normalized, node, hsame.trans hpath, hfile, hsize', rfl⟩
  obtain ⟨normalized', node', hpath', hfile', -⟩ :=
    FileAt.writeFile_same ⟨normalized, node, hpath, hfile, rfl⟩ hsame.symm hmid
  have hback := writeFile_eq_ok.mpr ⟨normalized', node', hpath', hfile', hsize, rfl⟩
  refine ⟨_, hmid, ?_⟩
  obtain ⟨normalized₂, node₂, hpath₂, hfile₂, -, -, hboth⟩ :=
    writeFile_writeFile hsame.symm hmid hback
  obtain rfl : normalized₂ = normalized := Except.ok.inj (hpath₂.symm.trans (hsame.trans hpath))
  obtain rfl : node₂ = node := Except.ok.inj (hfile₂.symm.trans hfile)
  rw [hback, hboth]
  have hdata : overwrite (overwrite node₂.data second.offset second.data) first.offset first.data
      = overwrite (overwrite node₂.data first.offset first.data) second.offset second.data := by
    refine @Sparse.ofList_injective _ 0 _ _ ?_
    rw [ofList_overwrite, ofList_overwrite, ofList_overwrite, ofList_overwrite]
    exact (Sparse.write_comm _ hdisjoint).symm
  rw [hdata]

end Write

/-! ## Sequences of writes -/

/-- Writes in order, up to the first that throws. -/
def writeAll (fs : ZeroFS) : List (Str × Patch UInt8) → Except ZeroFSException ZeroFS
  | [] => pure fs
  | (path, patch) :: calls => do
      let fs ← fs.writeFile path patch.offset patch.data
      fs.writeAll calls

/-- The patches of the writes to the file that a path names. -/
def patchesOf (path : Str) (calls : List (Str × Patch UInt8)) : List (Patch UInt8) :=
  (calls.filter fun call => normalizePath call.1 = normalizePath path).map Prod.snd

/-- A sequence of writes patches a file with those that name it. -/
theorem FileAt.writeAll {fs fs' : ZeroFS} {other : Str} {old : List UInt8}
    {calls : List (Str × Patch UInt8)} (h : FileAt fs other old)
    (hwrites : fs.writeAll calls = .ok fs') :
    ∃ new, FileAt fs' other new
      ∧ Sparse.ofList 0 new = (Sparse.ofList 0 old).writeAll (patchesOf other calls) := by
  induction calls generalizing fs old with
  | nil =>
    obtain rfl := Except.ok.inj hwrites
    exact ⟨old, h, rfl⟩
  | cons call calls ih =>
    obtain ⟨path, patch⟩ := call
    obtain ⟨next, hwrite, hwrites⟩ := bind_eq_ok.mp hwrites
    by_cases hsame : normalizePath path = normalizePath other
    · have hpatches : patchesOf other ((path, patch) :: calls) = patch :: patchesOf other calls := by
        simp [patchesOf, hsame]
      obtain ⟨new, hnew, hall⟩ := ih (h.writeFile_same hsame.symm hwrite) hwrites
      refine ⟨new, hnew, ?_⟩
      rw [hall, ofList_overwrite, hpatches]
      rfl
    · have hpatches : patchesOf other ((path, patch) :: calls) = patchesOf other calls := by
        simp [patchesOf, hsame]
      rw [hpatches]
      exact ih (h.writeFile_of_ne (Ne.symm hsame) hwrite) hwrites

/-! ## The algebra -/

/-- What a write to a file is for every reader. -/
structure Written (fs fs' : ZeroFS) (path : Str) (offset : ℕ) (data : List UInt8) : Prop where
  /-- A path that names the file sees it patched. -/
  same : ∀ other, normalizePath other = normalizePath path →
    ∃ old new, (fs.stat other = .ok ⟨.File, old.length⟩
        ∧ ∀ a n, fs.readFile other a n = .ok (bytesAt old a n))
      ∧ (fs'.stat other = .ok ⟨.File, new.length⟩
        ∧ ∀ a n, fs'.readFile other a n = .ok (bytesAt new a n))
      ∧ new.length = max old.length (offset + data.length)
      ∧ ∀ i, new.getD i 0 =
          if offset ≤ i ∧ i < offset + data.length then data.getD (i - offset) 0
          else if i < old.length then old.getD i 0 else 0
  /-- Any other path sees what it saw. -/
  others : ∀ other, normalizePath other ≠ normalizePath path →
    fs'.stat other = fs.stat other ∧ ∀ a n, fs'.readFile other a n = fs.readFile other a n

/-- A write that returns has written. -/
theorem written_of_writeFile {fs fs' : ZeroFS} {path : Str} {offset : ℕ} {data : List UInt8}
    (h : fs.writeFile path offset data = .ok fs') : Written fs fs' path offset data := by
  refine ⟨fun other hsame => ?_, fun other hne => ?_⟩
  · obtain ⟨old, hold⟩ := FileAt.of_writeFile h
    have hold := hold.congr hsame
    have hnew := hold.writeFile_same hsame h
    have hpatch := ofList_overwrite old offset data
    refine ⟨old, _, ⟨hold.stat, hold.readFile⟩, ⟨hnew.stat, hnew.readFile⟩,
      congrArg Sparse.size hpatch, fun i => ?_⟩
    have hget : (overwrite old offset data).getD i 0
        = if offset ≤ i ∧ i < offset + data.length then data.getD (i - offset) 0 else old.getD i 0 :=
      congrFun (congrArg Sparse.get hpatch) i
    rw [hget]
    by_cases hi : i < old.length
    · rw [if_pos hi]
    · rw [if_neg hi, List.getD_eq_default _ _ (not_lt.mp hi)]
  · exact ⟨stat_writeFile_of_ne h hne, readFile_writeFile_of_ne h hne⟩

/-- The laws of reading and writing: what a write does, that disjoint writes to a file commute, and
what a file holds after any sequence of writes. -/
theorem write_algebra (fs : ZeroFS) :
    (∀ path offset data fs', fs.writeFile path offset data = .ok fs' →
        Written fs fs' path offset data)
      ∧ (∀ path other (first second : Patch UInt8) fs₁ fs₂,
        normalizePath other = normalizePath path → first.Disjoint second →
        fs.writeFile path first.offset first.data = .ok fs₁ →
        fs₁.writeFile other second.offset second.data = .ok fs₂ →
        ∃ mid, fs.writeFile other second.offset second.data = .ok mid
          ∧ mid.writeFile path first.offset first.data = .ok fs₂)
      ∧ ∀ calls fs', fs.writeAll calls = .ok fs' → ∀ other old,
        (∀ a n, fs.readFile other a n = .ok (bytesAt old a n)) →
        ∃ new, fs'.stat other = .ok ⟨.File, new.length⟩
          ∧ (∀ a n, fs'.readFile other a n = .ok (bytesAt new a n))
          ∧ new.length = ((patchesOf other calls).map Patch.stop).foldl max old.length
          ∧ ∀ i, new.getD i 0
              = (Sparse.lastWritten 0 (patchesOf other calls) i).getD (old.getD i 0) := by
  refine ⟨fun path offset data fs' => written_of_writeFile, ?_, ?_⟩
  · intro path other first second fs₁ fs₂ hsame hdisjoint hfirst hsecond
    exact writeFile_comm hsame hdisjoint hfirst hsecond
  · intro calls fs' hwrites other old hread
    obtain ⟨data, hfile⟩ := FileAt.of_readFile (hread 0 kReadToEnd)
    have hdata : bytesAt data 0 kReadToEnd = bytesAt old 0 kReadToEnd :=
      Except.ok.inj ((hfile.readFile 0 kReadToEnd).symm.trans (hread 0 kReadToEnd))
    have hwhole : ∀ bytes, bytesAt bytes 0 kReadToEnd = bytes := fun bytes => if_pos rfl
    rw [hwhole, hwhole] at hdata
    subst hdata
    obtain ⟨new, hnew, hall⟩ := hfile.writeAll hwrites
    refine ⟨new, hnew.stat, hnew.readFile, ?_, fun i => ?_⟩
    · exact (congrArg Sparse.size hall).trans (Sparse.size_writeAll _ _)
    · exact (congrFun (congrArg Sparse.get hall) i).trans (Sparse.get_writeAll _ _ i)

/-- A write past the end leaves a gap, and `/a/.` names the file of `/a`. -/
theorem write_algebra_gap :
    ∃ fs', (⟨SortedMap.empty.emplace "/a" ⟨.File, [1, 2]⟩⟩ : ZeroFS).writeFile "/a" 4 [9] = .ok fs'
      ∧ fs'.readFile "/a/." 1 3 = .ok [2, 0, 0] := by
  obtain ⟨hwrite, -, -⟩ := write_algebra ⟨SortedMap.empty.emplace "/a" ⟨.File, [1, 2]⟩⟩
  have hok : (⟨SortedMap.empty.emplace "/a" ⟨.File, [1, 2]⟩⟩ : ZeroFS).writeFile "/a" 4 [9]
      = .ok ⟨SortedMap.empty.emplace "/a" ⟨.File, [1, 2, 0, 0, 9]⟩⟩ := rfl
  obtain ⟨old, new, ⟨-, hold⟩, ⟨-, hnew⟩, hsize, hbytes⟩ :=
    (hwrite "/a" 4 [9] _ hok).same "/a/." (by decide +kernel)
  have hbefore : bytesAt old 0 kReadToEnd = [1, 2] := Except.ok.inj (hold 0 kReadToEnd).symm
  have hafter : bytesAt new 0 kReadToEnd = [1, 2, 0, 0, 9] :=
    Except.ok.inj (hnew 0 kReadToEnd).symm
  have hwhole : ∀ bytes, bytesAt bytes 0 kReadToEnd = bytes := fun bytes => if_pos rfl
  rw [hwhole] at hbefore hafter
  subst hbefore hafter
  exact ⟨_, hok, hnew 1 3⟩

end ZeroFS

end ZeroCpu.Sys
