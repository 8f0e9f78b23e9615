import TripleTable.Proofs.Text.Characters
import TripleTable.Proofs.Text.Trimming
import TripleTable.Sparql.Comment
import TripleTable.Sparql.Term
set_option autoImplicit false

/-!
What the removal of comments does to a text that has none. It drops blanks only: those before a
line feed, wherever the line feed stands, and those at either end of the text.
-/
namespace TripleTable.Sparql

theorem tidy_lines (s : Text) : tidyLines s = Text.trimStart (Text.trimEnd (Text.unpad s)) := by
  have same : Text.trimEnd (Text.join "\n" ((Text.splitOn (· = '\n') s).map Text.trimEnd)) =
      Text.trimEnd (Text.unpad s) := by
    induction s using Text.by_lines with
    | last line whole =>
      have lone : Text.join "\n" ([line].map Text.trimEnd) = Text.trimEnd line := by
        simp [Text.join]
      rw [Text.split_last whole, Text.unpad_last whole, lone, Text.trim_end_twice]
    | next line rest whole ih =>
      obtain ⟨piece, pieces, split⟩ :=
        List.exists_cons_of_ne_nil (Text.splitOn_ne_nil (· = '\n') rest)
      have joined : Text.join "\n" ((line :: Text.splitOn (· = '\n') rest).map Text.trimEnd) =
          (Text.trimEnd line ++ ['\n']) ++
            Text.join "\n" ((Text.splitOn (· = '\n') rest).map Text.trimEnd) := by
        rw [split]
        simp [Text.join, List.intercalate]
      have spread : Text.unpad (line ++ '\n' :: rest) =
          (Text.trimEnd line ++ ['\n']) ++ Text.unpad rest := by
        rw [Text.unpad_line whole, List.append_cons]
      rw [Text.split_line whole, joined, spread, Text.trim_end_append, ih, ← Text.trim_end_append]
  rw [tidyLines, Text.trim_ends, same]

-- A character that stands for itself between the blanks, quotes, IRIs and comments.
def isBare (c : Char) : Bool :=
  !isBlank c && c != '"' && c != '\'' && c != '<' && c != '#'

theorem bare_not_blank {c : Char} (bare : isBare c) : isBlank c = false := by
  simp only [isBare, Bool.and_eq_true, Bool.not_eq_true'] at bare
  exact bare.1.1.1.1

theorem iri_not_blank {c : Char} (inside : isIriChar c) : isBlank c = false := by
  simp only [isIriChar, Bool.and_eq_true, Bool.not_eq_true'] at inside
  exact inside.2

theorem quote_not_blank {c : Char} (mark : c = '"' ∨ c = '\'') : isBlank c = false := by
  rcases mark with rfl | rfl
  · decide
  · decide

theorem blank_opens_none {c : Char} (blank : isBlank c) : c ∉ ['"', '\'', '<', '#'] := by
  have none : ∀ d ∈ ['"', '\'', '<', '#'], isBlank d = false := each_char (by decide)
  intro opens
  rw [none c opens] at blank
  cases blank

/-! ### Texts without comments -/

inductive CommentFree : Text → Prop
  | blanks {s : Text} (all : ∀ c ∈ s, isBlank c) : CommentFree s
  | space {c : Char} {s : Text} (kind : isSpace c) (rest : CommentFree s) : CommentFree (c :: s)
  | bare {c : Char} {s : Text} (kind : isBare c) (rest : CommentFree s) : CommentFree (c :: s)
  | iri {body s : Text} (inside : ∀ c ∈ body, isIriChar c) (rest : CommentFree s) :
    CommentFree ('<' :: (body ++ '>' :: s))
  | quoted {quote : Char} {body s : Text} (mark : quote = '"' ∨ quote = '\'')
    (absent : quote ∉ body) (rest : CommentFree s) : CommentFree (quote :: (body ++ quote :: s))

section
variable {c quote : Char} {body s : Text}

theorem drop_plain (opens : c ∉ ['"', '\'', '<', '#']) :
    dropComments .plain (c :: s) = c :: dropComments .plain s := by
  simp only [List.mem_cons, List.not_mem_nil, not_or, or_false] at opens
  simp [dropComments, Place.step, opens]

theorem drop_blank (blank : isBlank c) :
    dropComments .plain (c :: s) = c :: dropComments .plain s := drop_plain (blank_opens_none blank)

theorem drop_iri (inside : ∀ c ∈ body, isIriChar c) :
    dropComments .iri (body ++ '>' :: s) = body ++ '>' :: dropComments .plain s := by
  induction body with
  | nil => rfl
  | cons c body ih =>
    obtain ⟨first, others⟩ := List.forall_mem_cons.mp inside
    simp only [isIriChar, Bool.and_eq_true, bne_iff_ne, Bool.not_eq_true'] at first
    simp [dropComments, Place.step, first, ih others]

theorem drop_quoted (absent : quote ∉ body) :
    dropComments (.quoted quote) (body ++ quote :: s) = body ++ quote :: dropComments .plain s := by
  induction body with
  | nil => simp [dropComments, Place.step]
  | cons c body ih =>
    obtain ⟨other, more⟩ := not_or.mp (List.mem_cons.not.mp absent)
    simp [dropComments, Place.step, Ne.symm other, ih more]

theorem CommentFree.kept (free : CommentFree s) : dropComments .plain s = s := by
  induction free with
  | @blanks s all =>
    induction s with
    | nil => rfl
    | cons c s ih =>
      obtain ⟨first, others⟩ := List.forall_mem_cons.mp all
      rw [drop_blank first, ih others]
  | space kind rest ih => rw [drop_blank (isBlank_of_isSpace kind), ih]
  | bare kind rest ih =>
    simp only [isBare, Bool.and_eq_true, bne_iff_ne] at kind
    rw [drop_plain (by simp [kind]), ih]
  | @iri body s inside rest ih =>
    have opened : dropComments .plain ('<' :: (body ++ '>' :: s)) =
        '<' :: dropComments .iri (body ++ '>' :: s) := rfl
    rw [opened, drop_iri inside, ih]
  | @quoted quote body s mark absent rest ih =>
    have opened : dropComments .plain (quote :: (body ++ quote :: s)) =
        quote :: dropComments (.quoted quote) (body ++ quote :: s) := by
      simp [dropComments, Place.step, mark]
    rw [opened, drop_quoted absent, ih]

end

theorem mark_starts {c : Char} (solid : isBlank c = false) (s : Text) :
    Text.trimStart (c :: s) = c :: s := by
  simp [Text.trimStart, solid]

theorem mark_stays {c : Char} (solid : isBlank c = false) (s : Text) :
    (c :: s).dropWhile isSpace = c :: s := by
  have other : isSpace c = false := by
    by_contra space
    rw [isBlank_of_isSpace (by simpa using space)] at solid
    cases solid
  simp [other]

/-! ### Texts that differ in blanks -/

-- The same text up to how wide its gaps are, and up to blanks before line feeds inside quotes.
inductive Tidied : Text → Text → Prop
  | blanks {s : Text} (all : ∀ c ∈ s, isBlank c) : Tidied s []
  | gap {c d : Char} {gap s s' : Text} (wide : ∀ x ∈ c :: gap, isSpace x) (kept : isSpace d)
    (rest : Tidied s s') : Tidied (c :: (gap ++ s)) (d :: s')
  | bare {c : Char} {s s' : Text} (kind : isBare c) (rest : Tidied s s') : Tidied (c :: s) (c :: s')
  | iri {body s s' : Text} (inside : ∀ c ∈ body, isIriChar c) (rest : Tidied s s') :
    Tidied ('<' :: (body ++ '>' :: s)) ('<' :: (body ++ '>' :: s'))
  | quoted {quote : Char} {body s s' : Text} (mark : quote = '"' ∨ quote = '\'')
    (absent : quote ∉ body) (rest : Tidied s s') :
    Tidied (quote :: (body ++ quote :: s)) (quote :: (Text.unpad body ++ quote :: s'))

namespace Tidied

variable {c : Char} {s s' : Text}

theorem wider (kind : isSpace c) (blank : ∀ d ∈ s.head?, isBlank d) (tidied : Tidied s s') :
    Tidied (c :: s) s' := by
  cases tidied with
  | blanks all => exact .blanks (List.forall_mem_cons.mpr ⟨isBlank_of_isSpace kind, all⟩)
  | @gap d e gap s s' wide kept rest =>
    exact @Tidied.gap c e (d :: gap) s s' (List.forall_mem_cons.mpr ⟨kind, wide⟩) kept rest
  | bare solid rest => exact absurd (blank _ rfl) (by simp [bare_not_blank solid])
  | iri inside rest => exact absurd (blank _ rfl) (by decide)
  | quoted mark absent rest => exact absurd (blank _ rfl) (by simp [quote_not_blank mark])

theorem all_blank (tidied : Tidied s []) : ∀ c ∈ s, isBlank c := by
  cases tidied with
  | blanks all => exact all

theorem stay_blank (tidied : Tidied s s') (all : ∀ c ∈ s, isBlank c) : ∀ c ∈ s', isBlank c := by
  induction tidied with
  | blanks => simp
  | @gap c d gap s s' wide kept rest ih =>
    obtain ⟨_, behind⟩ := List.forall_mem_append.mp (List.forall_mem_cons.mp all).2
    exact List.forall_mem_cons.mpr ⟨isBlank_of_isSpace kept, ih behind⟩
  | bare solid => exact absurd (all _ List.mem_cons_self) (by simp [bare_not_blank solid])
  | iri => exact absurd (all _ List.mem_cons_self) (by decide)
  | quoted mark => exact absurd (all _ List.mem_cons_self) (by simp [quote_not_blank mark])

theorem dropped (tidied : Tidied s s') : Tidied (s.dropWhile isSpace) (s'.dropWhile isSpace) := by
  induction tidied with
  | blanks all => exact .blanks fun c member => all c ((List.dropWhile_sublist _).subset member)
  | @gap c d gap s s' wide kept rest ih =>
    rw [← List.cons_append, List.dropWhile_append_of_pos wide]
    simpa [kept] using ih
  | bare solid rest =>
    rw [mark_stays (bare_not_blank solid), mark_stays (bare_not_blank solid)]
    exact .bare solid rest
  | iri inside rest => exact .iri inside rest
  | quoted mark absent rest =>
    rw [mark_stays (quote_not_blank mark), mark_stays (quote_not_blank mark)]
    exact .quoted mark absent rest

-- At its start a text may lose its gap altogether.
theorem started (tidied : Tidied s s') :
    Tidied (s.dropWhile isSpace) ((Text.trimStart s').dropWhile isSpace) := by
  induction tidied with
  | blanks all => exact .blanks fun c member => all c ((List.dropWhile_sublist _).subset member)
  | @gap c d gap s s' wide kept rest ih =>
    rw [← List.cons_append, List.dropWhile_append_of_pos wide]
    simpa [Text.trimStart, isBlank_of_isSpace kept] using ih
  | bare solid rest =>
    rw [mark_starts (bare_not_blank solid)]
    exact (Tidied.bare solid rest).dropped
  | iri inside rest => exact .iri inside rest
  | quoted mark absent rest =>
    rw [mark_starts (quote_not_blank mark)]
    exact (Tidied.quoted mark absent rest).dropped

end Tidied

theorem trimmed_mark {front s : Text} {c : Char} (solid : isBlank c = false) :
    Text.trimEnd (Text.unpad (front ++ c :: s)) =
      Text.unpad front ++ c :: Text.trimEnd (Text.unpad s) := by
  rw [Text.unpad_mark solid, Text.trim_end_mark solid]

-- A blank is dropped if a line feed comes next or nothing but blanks, and is kept otherwise.
theorem space_tidied {c : Char} {s : Text} (kind : isSpace c)
    (behind : Tidied s (Text.trimEnd (Text.unpad s))) :
    Tidied (c :: s) (Text.trimEnd (Text.unpad (c :: s))) := by
  rw [Text.unpad]
  split
  · rename_i drops
    apply behind.wider kind
    intro d first
    by_cases pad : isPad d
    · exact (Bool.and_eq_true_iff.mp pad).1
    · obtain ⟨more, rfl⟩ := List.head?_eq_some_iff.mp first
      rw [List.dropWhile_cons_of_neg pad] at drops
      cases drops.2
      decide
  · rw [Text.trim_end_cons]
    split
    · rename_i empty
      rw [empty.1] at behind
      exact .blanks (List.forall_mem_cons.mpr ⟨empty.2, behind.all_blank⟩)
    · exact @Tidied.gap c c [] s _ (by simpa using kind) kind behind

theorem CommentFree.tidied {s : Text} (free : CommentFree s) :
    Tidied s (Text.trimEnd (Text.unpad s)) := by
  induction free with
  | blanks all =>
    rw [Text.trim_end_blanks.mpr (Text.unpad_blanks all)]
    exact .blanks all
  | space kind rest ih => exact space_tidied kind ih
  | @bare c s kind rest ih =>
    have whole := @trimmed_mark [] s c (bare_not_blank kind)
    rw [List.nil_append] at whole
    rw [whole]
    exact .bare kind ih
  | @iri body s inside rest ih =>
    have opened : Text.unpad ('<' :: body) = '<' :: Text.unpad body :=
      @Text.unpad_mark [] body '<' (by decide)
    have plain : Text.unpad ('<' :: body) = '<' :: body := by
      rw [opened, Text.unpad_plain fun c member => by simp [isPad, iri_not_blank (inside c member)]]
    rw [← List.cons_append, trimmed_mark (by decide), plain]
    exact .iri inside ih
  | @quoted quote body s mark absent rest ih =>
    have solid := quote_not_blank mark
    have kept : Text.unpad (quote :: body) = quote :: Text.unpad body :=
      @Text.unpad_mark [] body quote solid
    rw [← List.cons_append, trimmed_mark solid, kept]
    exact .quoted mark absent ih

-- The texts before and behind the removal of comments, from their first characters on.
theorem stripped_tidied {t : Text} (free : CommentFree t) :
    Tidied (t.dropWhile isSpace) ((stripComments t).dropWhile isSpace) := by
  rw [stripComments, free.kept, tidy_lines]
  exact free.tidied.started

end TripleTable.Sparql
