import Mathlib.Data.List.TakeDrop
import Mathlib.Data.List.TakeWhile
import ZeroCpu.Assembler.Text

/-!
# White space

What `trim` removes, and how a text is cut into lines and a line into tokens.
-/

namespace ZeroCpu.Assembler

open Library Binary

/-- Nothing but white space. -/
def Blank (text : Str) : Prop := ∀ ch ∈ text, isSpace ch = true

/-- No white space at either end. -/
structure Trimmed (text : Str) : Prop where
  head : ∀ ch ∈ text.head?, isSpace ch = false
  last : ∀ ch ∈ text.getLast?, isSpace ch = false

/-- No white space at all. -/
def Solid (text : Str) : Prop := ∀ ch ∈ text, isSpace ch = false

theorem Blank.nil : Blank [] := nofun

theorem Blank.append {text rest : Str} (h : Blank text) (hrest : Blank rest) :
    Blank (text ++ rest) := fun ch hch => (List.mem_append.mp hch).elim (h ch) (hrest ch)

theorem Solid.trimmed {text : Str} (h : Solid text) : Trimmed text where
  head ch hch := h ch (List.mem_of_mem_head? hch)
  last ch hch := h ch (List.mem_of_getLast? hch)

theorem dropWhile_blank {text : Str} (h : Blank text) (rest : Str) :
    (text ++ rest).dropWhile isSpace = rest.dropWhile isSpace :=
  List.dropWhile_append_of_pos h

/-- Nothing is dropped from a text that starts without white space. -/
theorem dropWhile_of_head {text : Str} (h : ∀ ch ∈ text.head?, isSpace ch = false) :
    text.dropWhile isSpace = text := by
  cases text with
  | nil => rfl
  | cons ch rest => rw [List.dropWhile_cons, if_neg (by simp [h ch rfl])]

/-- A text of which nothing is left was blank. -/
theorem Blank.of_trim {text : Str} (h : trim text = []) : Blank text := by
  unfold trim at h
  have hdropped := List.dropWhile_eq_nil_iff.mp (List.reverse_eq_nil_iff.mp h)
  have hblank : Blank (text.dropWhile isSpace) := fun ch hch =>
    hdropped ch (List.mem_reverse.mpr hch)
  intro ch hch
  rw [← List.takeWhile_append_dropWhile (p := isSpace) (l := text)] at hch
  rcases List.mem_append.mp hch with hch | hch
  · exact List.mem_takeWhile_imp hch
  · exact hblank ch hch

theorem Trimmed.nil : Trimmed [] := ⟨nofun, nofun⟩

/-- What `trim` does: it removes white space at both ends and nothing else. -/
theorem trim_surrounded {before text after : Str} (hbefore : Blank before) (h : Trimmed text)
    (hafter : Blank after) : trim (before ++ text ++ after) = text := by
  unfold trim
  rw [List.append_assoc, dropWhile_blank hbefore]
  have hback : ∀ ch ∈ after.reverse, isSpace ch = true := fun ch hch =>
    hafter ch (List.mem_reverse.mp hch)
  cases text with
  | nil =>
    have hnil : after.dropWhile isSpace = [] := List.dropWhile_eq_nil_iff.mpr hafter
    rw [List.nil_append, hnil]
    rfl
  | cons ch rest =>
    rw [@dropWhile_of_head (ch :: rest ++ after) h.head, List.reverse_append,
      List.dropWhile_append_of_pos hback, dropWhile_of_head ?_, List.reverse_reverse]
    rw [List.head?_reverse]
    exact h.last

theorem trim_blank {text : Str} (h : Blank text) : trim text = [] := by
  have := trim_surrounded h .nil .nil
  rwa [List.append_nil, List.append_nil] at this

theorem trim_eq_nil_iff {text : Str} : trim text = [] ↔ Blank text := ⟨Blank.of_trim, trim_blank⟩

theorem trim_of_trimmed {text : Str} (h : Trimmed text) : trim text = text := by
  have := trim_surrounded Blank.nil h .nil
  rwa [List.nil_append, List.append_nil] at this

/-- What is left starts without white space. -/
theorem head_dropWhile {text : Str} : ∀ ch ∈ (text.dropWhile isSpace).head?, isSpace ch = false := by
  intro ch hch
  have := List.head?_dropWhile_not isSpace text
  rw [Option.mem_def] at hch
  rw [hch] at this
  simpa using this

/-- Trimming leaves no white space around a text. -/
theorem trimmed_trim (text : Str) : Trimmed (trim text) := by
  constructor
  · intro ch hch
    unfold trim at hch
    rw [List.head?_reverse] at hch
    have hlast : ch ∈ (text.dropWhile isSpace).reverse.getLast? := by
      obtain ⟨front, hfront⟩ := List.dropWhile_suffix (l := (text.dropWhile isSpace).reverse) isSpace
      rw [← hfront, List.getLast?_append, Option.mem_def.mp hch]
      rfl
    rw [List.getLast?_reverse] at hlast
    exact head_dropWhile ch hlast
  · intro ch hch
    unfold trim at hch
    rw [List.getLast?_reverse] at hch
    exact head_dropWhile ch hch

@[simp] theorem trim_trim (text : Str) : trim (trim text) = trim text :=
  trim_of_trimmed (trimmed_trim text)

/-- A text is its trimmed text between two blanks. -/
theorem exists_surrounded (text : Str) :
    ∃ before after, Blank before ∧ Blank after ∧ text = before ++ trim text ++ after := by
  refine ⟨text.takeWhile isSpace, ((text.dropWhile isSpace).reverse.takeWhile isSpace).reverse,
    fun ch hch => List.mem_takeWhile_imp hch,
    fun ch hch => List.mem_takeWhile_imp (List.mem_reverse.mp hch), ?_⟩
  unfold trim
  rw [List.append_assoc, ← List.reverse_append, List.takeWhile_append_dropWhile,
    List.reverse_reverse, List.takeWhile_append_dropWhile]

/-- White space in front is trimmed. -/
theorem trim_blank_append {before : Str} (h : Blank before) (text : Str) :
    trim (before ++ text) = trim text := by
  obtain ⟨front, back, hfront, hback, heq⟩ := exists_surrounded text
  have := trim_surrounded (h.append hfront) (trimmed_trim text) hback
  rwa [List.append_assoc, List.append_assoc, ← List.append_assoc front, ← heq] at this

/-- White space at the end is trimmed. -/
theorem trim_append_blank {after : Str} (h : Blank after) (text : Str) :
    trim (text ++ after) = trim text := by
  obtain ⟨front, back, hfront, hback, heq⟩ := exists_surrounded text
  have := trim_surrounded hfront (trimmed_trim text) (hback.append h)
  rwa [← List.append_assoc, ← heq] at this

/-- What starts with no white space still starts so when trimmed. -/
theorem exists_trim_cons {ch : UInt8} (hch : isSpace ch = false) (rest : Str) :
    ∃ tail, trim (ch :: rest) = ch :: tail := by
  obtain ⟨before, after, hbefore, hafter, heq⟩ := exists_surrounded (ch :: rest)
  have hblank : ∀ text : Str, Blank text → ch ∉ text := fun text htext hmem =>
    Bool.false_ne_true (hch.symm.trans (htext ch hmem))
  cases before with
  | cons first before =>
    rw [List.cons_append, List.cons_append] at heq
    exact absurd ((List.cons.inj heq).1 ▸ List.mem_cons_self) (hblank _ hbefore)
  | nil =>
    rw [List.nil_append] at heq
    cases htrim : trim (ch :: rest) with
    | nil =>
      rw [htrim, List.nil_append] at heq
      exact absurd (heq ▸ List.mem_cons_self) (hblank _ hafter)
    | cons first tail =>
      rw [htrim, List.cons_append] at heq
      exact ⟨tail, by rw [(List.cons.inj heq).1]⟩

/-- The first token of a line. -/
theorem nextToken_append {before token rest : Str} (hbefore : Blank before) (htoken : Solid token)
    (hne : token ≠ []) (hrest : ∀ ch ∈ rest.head?, isSpace ch = true) :
    nextToken (before ++ token ++ rest) = (token, rest) := by
  unfold nextToken
  obtain ⟨first, others, rfl⟩ := List.exists_cons_of_ne_nil hne
  have hhead : ∀ ch ∈ (first :: others ++ rest).head?, isSpace ch = false := by
    intro ch hch
    rw [List.cons_append, List.head?_cons] at hch
    obtain rfl := Option.some.inj hch
    exact htoken first List.mem_cons_self
  rw [List.append_assoc, dropWhile_blank hbefore, dropWhile_of_head hhead,
    List.span_eq_takeWhile_dropWhile]
  have hsolid : ∀ ch ∈ first :: others, (!isSpace ch) = true := fun ch hch => by simp [htoken ch hch]
  rw [List.takeWhile_append_of_pos hsolid, List.dropWhile_append_of_pos hsolid]
  cases rest with
  | nil => rw [List.takeWhile_nil, List.dropWhile_nil, List.append_nil]
  | cons ch rest =>
    have hspace := hrest ch rfl
    rw [List.takeWhile_cons, List.dropWhile_cons, if_neg (by simp [hspace]), if_neg (by simp [hspace]),
      List.append_nil]

/-- A text without line breaks is the rest of its line. -/
theorem restOfLine_of_no_newline {text : Str} (h : 10 ∉ text) : restOfLine text = text := by
  unfold restOfLine
  rw [List.takeWhile_eq_self_iff]
  intro ch hch
  rw [bne_iff_ne]
  rintro rfl
  exact h hch

/-- A text without line breaks goes into the current line. -/
theorem splitLinesFrom_append {text : Str} (h : 10 ∉ text) (current rest : Str) :
    splitLinesFrom current (text ++ rest) = splitLinesFrom (current ++ text) rest := by
  induction text generalizing current with
  | nil => rw [List.nil_append, List.append_nil]
  | cons ch text ih =>
    rw [List.mem_cons, not_or] at h
    rw [List.cons_append, splitLinesFrom, if_neg fun heq => h.1 heq.symm, ih h.2, List.append_assoc,
      List.singleton_append]

end ZeroCpu.Assembler
