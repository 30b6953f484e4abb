import DomesdayDuplicator.Jtag.SvfPlayer
import Mathlib.Logic.Relation

/-!
# Between the tokens

White space and comments between the tokens of an SVF file change the lines its statements are
on, and nothing else about them: a player does the same with either file. The one exception is
a `//` right behind a word that ends in a slash.
-/

namespace Svf

open Manifest (Byte Text text)

/-! ## Reading character by character -/

/-- What one character, and a look at the next, makes of the reader. -/
def readChar : Mode → Reader → Byte → Option Byte → Mode × Reader × List Statement
  | .comment, r, c, _ =>
    if c = 0x0A#8 then (.words, { r with line := r.line + 1 }, []) else (.comment, r, [])
  | .value value, r, c, _ =>
    if c = 0x29#8 then (.words, { r with tokens := r.tokens ++ [⟨value, true⟩] }, [])
    else if c = 0x0A#8 then (.value value, { r with line := r.line + 1 }, [])
    else if c.toNat ≤ 0x20 then (.value value, r, [])
    else (.value (value ++ [c]), r, [])
  | .words, r, c, next =>
    if c = 0x0A#8 then (.words, { r.finishWord with line := r.line + 1 }, [])
    else if c.toNat ≤ 0x20 then (.words, r.finishWord, [])
    else if c = 0x21#8 ∨ c = 0x2F#8 ∧ next = some 0x2F#8 then (.comment, r.finishWord, [])
    else if c = 0x3B#8 then
      if r.finishWord.tokens = [] then (.words, { r.finishWord with started := false }, [])
      else (.words, .start r.finishWord.line,
        [⟨r.finishWord.tokens, r.finishWord.statementLine, r.finishWord.line⟩])
    else if c = 0x28#8 then (.value [], r.noteLine.finishWord, [])
    else (.words, { r.noteLine with word := r.word ++ [toUpper c] }, [])

/-- The statements found before go in front. -/
def SvfFile.after (file : SvfFile) (earlier : List Statement) : SvfFile :=
  { file with statements := earlier ++ file.statements }

theorem readFile_cons (mode : Mode) (r : Reader) (c : Byte) (rest : Text) :
    readFile mode r (c :: rest) =
      (readFile (readChar mode r c rest.head?).1 (readChar mode r c rest.head?).2.1 rest).after
        (readChar mode r c rest.head?).2.2 := by
  cases mode with
  | comment =>
    rw [readFile, readChar]
    split <;> rfl
  | value value =>
    rw [readFile, readChar]
    split_ifs <;> rfl
  | words =>
    rw [readFile, readChar]
    dsimp only
    split_ifs <;> rfl

/-- The reader behind `front`, with `back` still to come. -/
def advance : Mode → Reader → Text → Text → Mode × Reader × List Statement
  | mode, r, [], _ => (mode, r, [])
  | mode, r, c :: front, back =>
    let read := readChar mode r c (front ++ back).head?
    let more := advance read.1 read.2.1 front back
    (more.1, more.2.1, read.2.2 ++ more.2.2)

theorem readFile_append (mode : Mode) (r : Reader) (front back : Text) :
    readFile mode r (front ++ back) =
      (readFile (advance mode r front back).1 (advance mode r front back).2.1 back).after
        (advance mode r front back).2.2 := by
  induction front generalizing mode r with
  | nil => rfl
  | cons c front ih =>
    rw [List.cons_append, readFile_cons, ih, advance]
    simp only [SvfFile.after, List.append_assoc]

/-! ## Without the lines -/

def SvfFile.gist (file : SvfFile) : List (List Token) × Option Problem :=
  (file.statements.map Statement.tokens, file.problem.map Prod.snd)

/-- The readers differ in their lines only. -/
structure Reader.Alike (r r' : Reader) : Prop where
  tokens : r'.tokens = r.tokens
  word : r'.word = r.word

theorem Reader.Alike.finishWord {r r' : Reader} (alike : r.Alike r') :
    r.finishWord.Alike r'.finishWord := by
  obtain ⟨tokens, word⟩ := alike
  rw [Reader.finishWord, Reader.finishWord, word]
  split
  · exact ⟨tokens, word⟩
  · exact ⟨by rw [tokens], rfl⟩

@[simp] theorem noteLine_tokens (r : Reader) : r.noteLine.tokens = r.tokens := by
  rw [Reader.noteLine]
  split <;> rfl

@[simp] theorem noteLine_word (r : Reader) : r.noteLine.word = r.word := by
  rw [Reader.noteLine]
  split <;> rfl

theorem Reader.Alike.noteLine {r r' : Reader} (alike : r.Alike r') :
    r.noteLine.Alike r'.noteLine :=
  ⟨by rw [noteLine_tokens, noteLine_tokens, alike.tokens],
    by rw [noteLine_word, noteLine_word, alike.word]⟩

theorem finishWord_none {r : Reader} (none' : r.word = []) : r.finishWord = r := by
  rw [Reader.finishWord, if_pos none']

theorem finishWord_word (r : Reader) : r.finishWord.word = [] := by
  rw [Reader.finishWord]
  split
  · assumption
  · rfl

theorem readChar_alike {r r' : Reader} (alike : r.Alike r') (mode : Mode) (c : Byte)
    (next : Option Byte) :
    (readChar mode r' c next).1 = (readChar mode r c next).1 ∧
      (readChar mode r c next).2.1.Alike (readChar mode r' c next).2.1 ∧
      (readChar mode r' c next).2.2.map Statement.tokens =
        (readChar mode r c next).2.2.map Statement.tokens := by
  have finished := alike.finishWord
  cases mode with
  | comment =>
    rw [readChar, readChar]
    split
    · exact ⟨rfl, ⟨alike.tokens, alike.word⟩, rfl⟩
    · exact ⟨rfl, alike, rfl⟩
  | value value =>
    rw [readChar, readChar]
    split_ifs
    · exact ⟨rfl, ⟨by rw [alike.tokens], alike.word⟩, rfl⟩
    · exact ⟨rfl, ⟨alike.tokens, alike.word⟩, rfl⟩
    · exact ⟨rfl, alike, rfl⟩
    · exact ⟨rfl, alike, rfl⟩
  | words =>
    rw [readChar, readChar, finished.tokens]
    split_ifs
    · exact ⟨rfl, ⟨finished.tokens, finished.word⟩, rfl⟩
    · exact ⟨rfl, finished, rfl⟩
    · exact ⟨rfl, finished, rfl⟩
    · exact ⟨rfl, ⟨finished.tokens, finished.word⟩, rfl⟩
    · exact ⟨rfl, ⟨rfl, rfl⟩, rfl⟩
    · exact ⟨rfl, alike.noteLine.finishWord, rfl⟩
    · exact ⟨rfl, ⟨alike.noteLine.tokens, by rw [alike.word]⟩, rfl⟩

theorem gist_after (file : SvfFile) (earlier : List Statement) :
    (file.after earlier).gist =
      (earlier.map Statement.tokens ++ file.gist.1, file.gist.2) := by
  rw [SvfFile.gist, SvfFile.after, List.map_append]
  rfl

/-- What is read does not depend on the lines. -/
theorem readFile_alike {r r' : Reader} (alike : r.Alike r') (mode : Mode) (contents : Text) :
    (readFile mode r' contents).gist = (readFile mode r contents).gist := by
  induction contents generalizing mode r r' with
  | nil =>
    have finished := alike.finishWord
    cases mode with
    | words | comment =>
      simp only [readFile, SvfFile.gist, finished.tokens]
      split <;> rfl
    | value value => rfl
  | cons c rest ih =>
    obtain ⟨mode', reader, found⟩ := readChar_alike alike mode c rest.head?
    rw [readFile_cons, readFile_cons, gist_after, gist_after, mode', ih reader, found]

/-! ## Gaps -/

/-- White space, and comments with the ends of their lines. -/
inductive Gap : Text → Prop
  | none : Gap []
  | space {c : Byte} {rest : Text} (blank : c.toNat ≤ 0x20) (more : Gap rest) : Gap (c :: rest)
  | comment {opener body rest : Text} (opens : opener = text "!" ∨ opener = text "//")
      (within : 0x0A#8 ∉ body) (more : Gap rest) : Gap (opener ++ body ++ 0x0A#8 :: rest)

/-- A word ends where this begins. -/
def Delimited : Text → Prop
  | [] => True
  | c :: rest => c.toNat ≤ 0x20 ∨ c = 0x21#8 ∨ c = 0x3B#8 ∨ c = 0x28#8 ∨
      c = 0x2F#8 ∧ rest.head? = some 0x2F#8

/-- The reader is neither in a value, nor in a comment, nor in a word. -/
def Between (front back : Text) : Prop :=
  (advance .words (.start 1) front back).1 = .words ∧
    ((advance .words (.start 1) front back).2.1.word = [] ∨ Delimited back)

/-- A gap more between two tokens, or a comment that ends the file; a `//` does not go behind a
slash. -/
inductive Inserted : Text → Text → Prop
  | gap {front gap back : Text} (between : Between front back) (blank : Gap gap)
      (apart : front.getLast? = some 0x2F#8 → gap.head? ≠ some 0x2F#8) :
      Inserted (front ++ back) (front ++ gap ++ back)
  | last {front opener body : Text} (between : Between front [])
      (opens : opener = text "!" ∨ opener = text "//") (within : 0x0A#8 ∉ body)
      (apart : front.getLast? = some 0x2F#8 → opener.head? ≠ some 0x2F#8) :
      Inserted front (front ++ (opener ++ body))

theorem delimited_opener {opener : Text} (opens : opener = text "!" ∨ opener = text "//")
    (back : Text) : Delimited (opener ++ back) := by
  rcases opens with rfl | rfl
  · exact Or.inr (Or.inl rfl)
  · exact Or.inr (Or.inr (Or.inr (Or.inr ⟨rfl, rfl⟩)))

theorem Gap.delimited {gap : Text} (blank : Gap gap) (some' : gap ≠ []) (back : Text) :
    Delimited (gap ++ back) := by
  cases blank with
  | none => exact absurd rfl some'
  | space small more => exact Or.inl small
  | comment opens within more =>
    rw [List.append_assoc, List.append_assoc]
    exact delimited_opener opens _

/-- A comment begins. -/
theorem readFile_opener {opener : Text} (opens : opener = text "!" ∨ opener = text "//")
    {r : Reader} (none' : r.word = []) (body : Text) :
    ∃ rest, (rest = body ∨ rest = 0x2F#8 :: body) ∧
      readFile .words r (opener ++ body) = readFile .comment r rest := by
  rcases opens with rfl | rfl
  · refine ⟨body, Or.inl rfl, ?_⟩
    have bang : text "!" = [0x21#8] := by decide
    rw [bang, List.singleton_append, readFile, if_neg (by decide), if_neg (by decide),
      if_pos (Or.inl rfl), finishWord_none none']
  · refine ⟨0x2F#8 :: body, Or.inr rfl, ?_⟩
    have slashes : text "//" = [0x2F#8, 0x2F#8] := by decide
    rw [slashes, List.cons_append, List.singleton_append]
    generalize behind : 0x2F#8 :: body = rest
    have next : rest.head? = some 0x2F#8 := by rw [← behind]; rfl
    rw [readFile, if_neg (by decide), if_neg (by decide), if_pos (Or.inr ⟨rfl, next⟩),
      finishWord_none none']

/-- A comment that ends the file says nothing. -/
theorem readFile_lastComment (r : Reader) {body : Text} (within : 0x0A#8 ∉ body) :
    (readFile .comment r body).gist = (readFile .words r []).gist := by
  induction body with
  | nil => rfl
  | cons c body ih =>
    rw [List.mem_cons, not_or] at within
    have skip : readFile .comment r (c :: body) = readFile .comment r body := by
      rw [readFile, if_neg (Ne.symm within.left)]
    rw [skip, ih within.right]

/-- A comment is read to the end of its line. -/
theorem readFile_comment (r : Reader) {body : Text} (within : 0x0A#8 ∉ body) (rest : Text) :
    readFile .comment r (body ++ 0x0A#8 :: rest) =
      readFile .words { r with line := r.line + 1 } rest := by
  induction body with
  | nil => rw [List.nil_append, readFile, if_pos rfl]
  | cons c body ih =>
    rw [List.mem_cons, not_or] at within
    rw [List.cons_append, readFile, if_neg (Ne.symm within.left), ih within.right]

theorem finishWord_again (r : Reader) : r.finishWord.finishWord = r.finishWord :=
  finishWord_none (finishWord_word r)

/-- A delimiter does not mind whether the word in front of it is finished. -/
theorem readChar_delimiter (r : Reader) {c : Byte} {next : Option Byte}
    (delimits : c.toNat ≤ 0x20 ∨ c = 0x21#8 ∨ c = 0x3B#8 ∨ c = 0x28#8 ∨
      c = 0x2F#8 ∧ next = some 0x2F#8) :
    (readChar .words r c next).1 = (readChar .words r.finishWord c next).1 ∧
      (readChar .words r.finishWord c next).2.1.Alike (readChar .words r c next).2.1 ∧
      (readChar .words r c next).2.2.map Statement.tokens =
        (readChar .words r.finishWord c next).2.2.map Statement.tokens := by
  have bracket : r.finishWord.noteLine.finishWord.Alike r.noteLine.finishWord := by
    have noted : r.noteLine.Alike r := ⟨(noteLine_tokens r).symm, (noteLine_word r).symm⟩
    have noted' : r.finishWord.noteLine.Alike r.finishWord :=
      ⟨(noteLine_tokens _).symm, (noteLine_word _).symm⟩
    have left := noted.finishWord
    have right := noted'.finishWord
    rw [finishWord_again] at right
    exact ⟨left.tokens.symm.trans right.tokens, left.word.symm.trans right.word⟩
  have same (r : Reader) : r.Alike r := ⟨rfl, rfl⟩
  rw [readChar, readChar, finishWord_again]
  split_ifs with newline blank comment semicolon empty value
  · exact ⟨rfl, ⟨rfl, rfl⟩, rfl⟩
  · exact ⟨rfl, same _, rfl⟩
  · exact ⟨rfl, same _, rfl⟩
  · exact ⟨rfl, same _, rfl⟩
  · exact ⟨rfl, same _, rfl⟩
  · exact ⟨rfl, bracket, rfl⟩
  · rcases delimits with small | bang | stop | opens | slashes
    · exact absurd small blank
    · exact absurd (Or.inl bang) comment
    · exact absurd stop semicolon
    · exact absurd opens value
    · exact absurd (Or.inr slashes) comment

theorem readFile_delimited (r : Reader) {contents : Text} (delimited : Delimited contents) :
    (readFile .words r contents).gist = (readFile .words r.finishWord contents).gist := by
  cases contents with
  | nil =>
    simp only [readFile, SvfFile.gist, finishWord_again]
  | cons c rest =>
    obtain ⟨mode, reader, found⟩ := readChar_delimiter r delimited
    rw [readFile_cons, readFile_cons, gist_after, gist_after, mode, readFile_alike reader, found]

/-- A gap leaves the reader where it was. -/
theorem readFile_gap {gap : Text} (blank : Gap gap) (back : Text) {r : Reader}
    (none' : r.word = []) :
    (readFile .words r (gap ++ back)).gist = (readFile .words r back).gist := by
  induction blank generalizing r with
  | none => rfl
  | @space c rest small more ih =>
    have here : (readChar .words r c (rest ++ back).head?).1 = .words ∧
        r.Alike (readChar .words r c (rest ++ back).head?).2.1 ∧
        (readChar .words r c (rest ++ back).head?).2.2 = [] := by
      rw [readChar, finishWord_none none']
      by_cases newline : c = 0x0A#8
      · rw [if_pos newline]
        exact ⟨rfl, ⟨rfl, rfl⟩, rfl⟩
      · rw [if_neg newline, if_pos small]
        exact ⟨rfl, ⟨rfl, rfl⟩, rfl⟩
    obtain ⟨mode, reader, found⟩ := here
    rw [List.cons_append, readFile_cons, gist_after, mode, found, ih (reader.word.trans none'),
      readFile_alike reader]
    rfl
  | @comment opener body rest opens within more ih =>
    have skipped : readFile .words r ((opener ++ body ++ 0x0A#8 :: rest) ++ back) =
        readFile .words { r with line := r.line + 1 } (rest ++ back) := by
      obtain ⟨inside, either, comments⟩ :=
        readFile_opener opens none' (body ++ 0x0A#8 :: (rest ++ back))
      rw [List.append_assoc, List.append_assoc, List.cons_append, comments]
      rcases either with rfl | rfl
      · exact readFile_comment r within (rest ++ back)
      · have within' : 0x0A#8 ∉ 0x2F#8 :: body := by
          rw [List.mem_cons, not_or]
          exact ⟨by decide, within⟩
        exact readFile_comment r within' (rest ++ back)
    rw [skipped]
    exact (@ih { r with line := r.line + 1 } none').trans
      (@readFile_alike r { r with line := r.line + 1 } ⟨rfl, rfl⟩ .words back)

/-- A character is read as before, but for a slash that gets a slash behind it. -/
theorem readChar_next {mode : Mode} {r : Reader} {c : Byte} {next next' : Option Byte}
    (words : (readChar mode r c next).1 = .words)
    (apart : c = 0x2F#8 → next' = next ∨ next' ≠ some 0x2F#8) :
    readChar mode r c next' = readChar mode r c next := by
  cases mode with
  | comment => rfl
  | value value => rfl
  | words =>
    by_cases slash : c = 0x2F#8
    · subst slash
      have none' : next ≠ some 0x2F#8 := by
        rintro rfl
        rw [readChar, if_neg (by decide), if_neg (by decide), if_pos (Or.inr ⟨rfl, rfl⟩)] at words
        cases words
      have none'' : next' ≠ some 0x2F#8 := by
        rcases apart rfl with rfl | other
        · exact none'
        · exact other
      simp only [readChar, none', none'', and_false]
    · simp only [readChar, slash, false_and]

/-- What is behind a text changes nothing in front of a place between two tokens. -/
theorem advance_gap {mode : Mode} {r : Reader} {front gap back : Text}
    (words : (advance mode r front back).1 = .words)
    (apart : front.getLast? = some 0x2F#8 → gap.head? ≠ some 0x2F#8) :
    advance mode r front (gap ++ back) = advance mode r front back := by
  induction front generalizing mode r with
  | nil => rfl
  | cons c front ih =>
    cases front with
    | cons c' front =>
      have first (back : Text) : advance mode r (c :: c' :: front) back =
          ((advance (readChar mode r c (some c')).1 (readChar mode r c (some c')).2.1
              (c' :: front) back).1,
            (advance (readChar mode r c (some c')).1 (readChar mode r c (some c')).2.1
              (c' :: front) back).2.1,
            (readChar mode r c (some c')).2.2 ++
              (advance (readChar mode r c (some c')).1 (readChar mode r c (some c')).2.1
                (c' :: front) back).2.2) := rfl
      rw [first] at words
      rw [first, first, ih words (by rwa [List.getLast?_cons_cons] at apart)]
    | nil =>
      have single (back : Text) : advance mode r [c] back =
          ((readChar mode r c back.head?).1, (readChar mode r c back.head?).2.1,
            (readChar mode r c back.head?).2.2 ++ []) := rfl
      rw [single] at words
      rw [single, single, readChar_next words fun slash => ?_]
      cases gap with
      | nil => exact Or.inl rfl
      | cons c' gap => exact Or.inr (apart (by rw [slash]; rfl))

/-- A text between two tokens that a reader without a word skips. -/
theorem readText_skipped {front gap back : Text} (between : Between front back)
    (apart : front.getLast? = some 0x2F#8 → gap.head? ≠ some 0x2F#8)
    (delimited : gap ≠ [] → Delimited (gap ++ back))
    (skips : ∀ r : Reader, r.word = [] →
      (readFile .words r (gap ++ back)).gist = (readFile .words r back).gist) :
    (readText (front ++ gap ++ back)).gist = (readText (front ++ back)).gist := by
  obtain ⟨words, place⟩ := between
  have before := advance_gap words apart
  rw [readText, readText, List.append_assoc, readFile_append .words _ front (gap ++ back),
    readFile_append .words _ front back, gist_after, gist_after, before, words]
  generalize (advance .words (.start 1) front back).2.1 = r at place
  by_cases nothing : gap = []
  · rw [nothing]
    rfl
  · have same : (readFile .words r (gap ++ back)).gist = (readFile .words r back).gist := by
      rw [readFile_delimited r (delimited nothing), skips _ (finishWord_word r)]
      rcases place with none' | delimited
      · rw [finishWord_none none']
      · exact (readFile_delimited r delimited).symm
    rw [same]

/-- A gap more changes the lines, and nothing else that is read. -/
theorem readText_inserted {contents contents' : Text} (inserted : Inserted contents contents') :
    (readText contents').gist = (readText contents).gist := by
  cases inserted with
  | @gap front gap back between blank apart =>
    exact readText_skipped between apart (fun some' => blank.delimited some' back)
      fun r none' => readFile_gap blank back none'
  | @last _ opener body between opens within apart =>
    have first : (opener ++ body).head? = opener.head? := by
      rcases opens with rfl | rfl <;> rfl
    have skipped := @readText_skipped contents (opener ++ body) [] between (first ▸ apart)
      (fun _ => by
        rw [List.append_nil]
        exact delimited_opener opens body) fun r none' => by
        obtain ⟨inside, either, comments⟩ := readFile_opener opens none' body
        rw [List.append_nil, comments]
        rcases either with rfl | rfl
        · exact readFile_lastComment r within
        · refine readFile_lastComment r ?_
          rw [List.mem_cons, not_or]
          exact ⟨by decide, within⟩
    rwa [List.append_nil, List.append_nil] at skipped

/-- Gap after gap. -/
def Respaced : Text → Text → Prop := Relation.ReflTransGen Inserted

theorem readText_respaced {contents contents' : Text} (respaced : Respaced contents contents') :
    (readText contents').gist = (readText contents).gist := by
  induction respaced with
  | refl => rfl
  | tail _ last ih => exact (readText_inserted last).trans ih

end Svf
