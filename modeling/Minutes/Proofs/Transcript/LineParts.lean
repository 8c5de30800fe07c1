import Minutes.Proofs.Text.Blank
import Minutes.Transcript.Line

/-!
The parts of a comment line. A text is a comment line if it can be written from such parts, and
then in one way only, if an opening bracket is taken as the bracket before the time wherever there
is one. Reading a line finds these parts.
-/
namespace Minutes

namespace CommentLine
open Text

/-- A time, as it stands before its bracket: a run of characters that are not white space, or the
word of a day, a space and such a run. -/
inductive IsTime : List Char → Prop
  | run {run : List Char} (hrun : ∀ c ∈ run, isInk c = true) : IsTime run
  | day {day run : List Char} (hday : day ≠ [] ∧ ∀ c ∈ day, isWordChar c = true)
      (hrun : run ≠ [] ∧ ∀ c ∈ run, isInk c = true) : IsTime (day ++ ' ' :: run)

/-- The white space between two parts of a line. -/
def IsGap (s : List Char) : Prop := s ≠ [] ∧ ∀ c ∈ s, isBlank c = true

/-- The parts that a comment line is written from, each as it may be. White space stands before the
nick, as the gap, and before the message, as the margin. -/
structure Parts where
  bracket : Bool
  time : List Char
  gap : List Char
  nick : List Char
  margin : List Char
  message : List Char
  isTime : IsTime time
  isGap : IsGap gap
  nick_ends : '>' ∉ nick
  isMargin : IsGap margin
  message_ends : '\n' ∉ message
  message_begins : message.head?.all isInk = true

namespace Parts

def afterNick (p : Parts) : List Char := p.margin ++ p.message

def afterGap (p : Parts) : List Char := '<' :: p.nick ++ '>' :: p.afterNick

def afterTime (p : Parts) : List Char := p.gap ++ p.afterGap

def afterBracket (p : Parts) : List Char := p.time ++ ']' :: p.afterTime

/-- The text of a line. -/
def written (p : Parts) : List Char := (if p.bracket then ['['] else []) ++ p.afterBracket

/-- The line as it is read. -/
def line (p : Parts) : CommentLine where
  time := String.ofList p.time
  nick := String.ofList (lowered p.nick)
  message := String.ofList p.message
  raw := String.ofList p.written

/-- An opening bracket is not taken to belong to the time. -/
def TakesBracket (p : Parts) : Prop := p.written.head? = some '[' → p.bracket = true

end Parts

theorem isInk_of_isWordChar {c : Char} (h : isWordChar c = true) : isInk c = true := by
  simp [isInk, isBlank_of_isWordChar h]

/-- The bracket that closes a time is the last character before white space. -/
theorem takeWhile_isInk_iff {s run rest : List Char} :
    s.takeWhile isInk = run ++ [']'] ∧ s.dropWhile isInk = rest ↔
      s = run ++ ']' :: rest ∧ (∀ c ∈ run, isInk c = true) ∧ rest.head?.all isBlank = true := by
  have hbracket : isInk ']' = true := by decide
  have hblank : (!isInk ·) = isBlank := by
    funext c
    simp [isInk]
  rw [takeWhile_dropWhile_iff, hblank]
  simp [hbracket, or_imp, forall_and]

theorem isTime_of_time? {s time rest : List Char} (h : time? s = some (time, rest)) :
    IsTime time ∧ s = time ++ ']' :: rest := by
  unfold time? at h
  simp only at h
  split at h
  · rename_i hlast
    obtain ⟨rfl, rfl⟩ := Prod.mk.inj (Option.some.inj h)
    obtain ⟨hs, hrun, -⟩ :=
      takeWhile_isInk_iff.mp ⟨(List.dropLast_append_getLast? _ hlast).symm, rfl⟩
    exact ⟨.run hrun, hs⟩
  · split at h
    · rename_i c day tail hday htail
      split_ifs at h with hrun
      obtain ⟨hlong, hlast⟩ := hrun
      obtain ⟨rfl, rfl⟩ := Prod.mk.inj (Option.some.inj h)
      obtain ⟨hs, hword, -⟩ := takeWhile_dropWhile_iff.mp ⟨hday, htail⟩
      obtain ⟨htail, hrun, -⟩ :=
        takeWhile_isInk_iff.mp ⟨(List.dropLast_append_getLast? _ hlast).symm, rfl⟩
      have hne : (tail.takeWhile isInk).dropLast ≠ [] := by
        apply List.ne_nil_of_length_pos
        rw [List.length_dropLast]
        omega
      refine ⟨.day ⟨List.cons_ne_nil c day, hword⟩ ⟨hne, hrun⟩, ?_⟩
      rw [hs, List.append_assoc (c :: day)]
      exact congrArg (fun tail => c :: day ++ ' ' :: tail) htail
    · cases h

/-- A time is read up to its bracket, which is the one before white space. -/
theorem time?_of_isTime {time rest : List Char} (h : IsTime time)
    (hrest : rest.head?.all isBlank = true) : time? (time ++ ']' :: rest) = some (time, rest) := by
  unfold time?
  cases h with
  | run hrun =>
    obtain ⟨htake, hdrop⟩ := takeWhile_isInk_iff.mpr ⟨rfl, hrun, hrest⟩
    simp [htake, hdrop]
  | @day day run hday hrun =>
    obtain ⟨c, day, rfl⟩ := List.exists_cons_of_ne_nil hday.1
    have hs : c :: day ++ ' ' :: run ++ ']' :: rest =
        (c :: day) ++ ' ' :: (run ++ ']' :: rest) := by simp
    have hspace : isInk ' ' = false ∧ isWordChar ' ' = false := by decide
    -- The first run of the text is the day, and a word does not end with a bracket.
    have hfirst := takeWhile_dropWhile_iff.mpr
      ⟨hs, fun d hd => isInk_of_isWordChar (hday.2 d hd), by simp [hspace.1]⟩
    have hopen : (c :: day).getLast? ≠ some ']' := by
      intro hlast
      have hc := hday.2 ']' (List.mem_of_getLast? hlast)
      exact absurd hc (by decide)
    obtain ⟨htake, hdrop⟩ := takeWhile_dropWhile_iff.mpr ⟨hs, hday.2, by simp [hspace.2]⟩
    obtain ⟨htake', hdrop'⟩ := takeWhile_isInk_iff.mpr ⟨rfl, hrun.2, hrest⟩
    have hlong : 2 ≤ (run ++ [']']).length := by
      have hpos := List.length_pos_of_ne_nil hrun.1
      rw [List.length_append, List.length_singleton]
      omega
    simp only [hfirst.1, hopen, if_false, htake, hdrop, htake', hdrop', hlong]
    simp

/-- A time that begins with a bracket is a time without it. -/
theorem isTime_of_cons {s : List Char} (h : IsTime ('[' :: s)) : IsTime s := by
  generalize ht : '[' :: s = time at h
  cases h with
  | run hrun =>
    subst ht
    exact .run (List.forall_mem_cons.mp hrun).2
  | @day day run hday hrun =>
    -- A day begins with a word character, which a bracket is not.
    obtain ⟨c, day, rfl⟩ := List.exists_cons_of_ne_nil hday.1
    obtain ⟨rfl, -⟩ := List.cons.inj ht
    have hc := hday.2 '[' List.mem_cons_self
    exact absurd hc (by decide)

theorem afterBlanks?_eq_some_iff {s rest : List Char} :
    afterBlanks? s = some rest ↔
      ∃ gap, IsGap gap ∧ s = gap ++ rest ∧ rest.head?.all isInk = true := by
  constructor
  · intro h
    cases s with
    | nil => cases h
    | cons c s =>
      simp only [afterBlanks?] at h
      split_ifs at h with hc
      obtain rfl := Option.some.inj h
      obtain ⟨hs, hgap, hrest⟩ := takeWhile_dropWhile_iff.mp
        (⟨rfl, rfl⟩ : s.takeWhile isBlank = _ ∧ s.dropWhile isBlank = _)
      refine ⟨c :: s.takeWhile isBlank, ⟨List.cons_ne_nil _ _, ?_⟩, ?_, hrest⟩
      · simpa [hc] using hgap
      · rw [List.cons_append]
        exact congrArg (c :: ·) hs
  · rintro ⟨gap, ⟨hne, hgap⟩, rfl, hrest⟩
    obtain ⟨c, gap, rfl⟩ := List.exists_cons_of_ne_nil hne
    obtain ⟨hc, hgap⟩ := List.forall_mem_cons.mp hgap
    have hdrop := (takeWhile_dropWhile_iff.mpr ⟨rfl, hgap, hrest⟩).2
    simp [afterBlanks?, hc, trimStart, hdrop]

theorem nick?_eq_some_iff {s nick rest : List Char} :
    nick? s = some (nick, rest) ↔ s = '<' :: nick ++ '>' :: rest ∧ '>' ∉ nick := by
  constructor
  · intro h
    unfold nick? at h
    split at h
    · rename_i s
      split at h
      · rename_i c tail htail
        obtain ⟨rfl, rfl⟩ := Prod.mk.inj (Option.some.inj h)
        obtain ⟨hs, hnick⟩ := takeWhile_bne_iff.mp ⟨rfl, c, htail⟩
        exact ⟨congrArg ('<' :: ·) hs, hnick⟩
      · cases h
    · cases h
  · rintro ⟨rfl, hnick⟩
    obtain ⟨htake, c, hdrop⟩ := takeWhile_bne_iff.mpr ⟨Eq.refl (nick ++ '>' :: rest), hnick⟩
    simp [nick?, htake, hdrop]

theorem withoutBracket_of_head? {s : List Char} (h : s.head? ≠ some '[') :
    withoutBracket s = s := by
  unfold withoutBracket
  split
  · exact absurd rfl h
  · rfl

theorem bracket_append_withoutBracket (s : List Char) :
    (if s.head? = some '[' then ['['] else []) ++ withoutBracket s = s := by
  split_ifs with h
  · obtain ⟨tail, rfl⟩ := List.head?_eq_some_iff.mp h
    rfl
  · exact withoutBracket_of_head? h

/-- A line that can be read has the parts that are read. -/
theorem exists_parts_of_read? {s : List Char} {line : CommentLine} (h : read? s = some line) :
    ∃ p : Parts, p.TakesBracket ∧ p.written = s ∧ p.line = line := by
  unfold read? at h
  simp only [Option.bind_eq_bind, Option.bind_eq_some_iff, Prod.exists] at h
  obtain ⟨time, s₁, htime, s₂, hgap, nick, s₃, hnick, message, hmargin, h⟩ := h
  split_ifs at h with hline
  obtain ⟨isTime, hs⟩ := isTime_of_time? htime
  obtain ⟨gap, isGap, hs₁, -⟩ := afterBlanks?_eq_some_iff.mp hgap
  obtain ⟨hs₂, nick_ends⟩ := nick?_eq_some_iff.mp hnick
  obtain ⟨margin, isMargin, hs₃, message_begins⟩ := afterBlanks?_eq_some_iff.mp hmargin
  have message_ends : '\n' ∉ message := by simpa using hline
  let p : Parts :=
    { bracket := decide (s.head? = some '['), time, gap, nick, margin, message, isTime, isGap,
      nick_ends, isMargin, message_ends, message_begins }
  have hwritten : p.written = s := by
    rw [← bracket_append_withoutBracket s, hs, hs₁, hs₂, hs₃]
    simp [p, Parts.written, Parts.afterBracket, Parts.afterTime, Parts.afterGap, Parts.afterNick]
  refine ⟨p, ?_, hwritten, ?_⟩
  · intro hopen
    rw [hwritten] at hopen
    exact decide_eq_true hopen
  · rw [← Option.some.inj h, Parts.line, hwritten]

namespace Parts

section
variable (p : Parts)

theorem time?_afterBracket : time? p.afterBracket = some (p.time, p.afterTime) := by
  obtain ⟨c, gap, hgap⟩ := List.exists_cons_of_ne_nil p.isGap.1
  have hc : isBlank c = true := p.isGap.2 c (by simp [hgap])
  exact time?_of_isTime p.isTime (by simp [afterTime, hgap, hc])

theorem afterBlanks?_afterTime : afterBlanks? p.afterTime = some p.afterGap := by
  have hopen : isInk '<' = true := by decide
  refine afterBlanks?_eq_some_iff.mpr ⟨p.gap, p.isGap, rfl, ?_⟩
  simp [afterGap, hopen]

theorem nick?_afterGap : nick? p.afterGap = some (p.nick, p.afterNick) :=
  nick?_eq_some_iff.mpr ⟨rfl, p.nick_ends⟩

theorem afterBlanks?_afterNick : afterBlanks? p.afterNick = some p.message :=
  afterBlanks?_eq_some_iff.mpr ⟨p.margin, p.isMargin, rfl, p.message_begins⟩

end

variable {p q : Parts}

theorem TakesBracket.bracket_eq (h : p.TakesBracket) :
    p.bracket = decide (p.written.head? = some '[') := by
  cases hb : p.bracket with
  | true => simp [written, hb]
  | false =>
    symm
    rw [decide_eq_false_iff_not]
    intro hopen
    rw [h hopen] at hb
    cases hb

theorem TakesBracket.withoutBracket_written (h : p.TakesBracket) :
    withoutBracket p.written = p.afterBracket := by
  cases hb : p.bracket with
  | true => simp [written, hb, withoutBracket]
  | false =>
    have hopen : p.written.head? ≠ some '[' := by
      simpa [hb] using h.bracket_eq
    rw [withoutBracket_of_head? hopen]
    simp [written, hb]

/-- The parts that a line is written from are read from it. -/
theorem TakesBracket.read?_written (h : p.TakesBracket) : read? p.written = some p.line := by
  rw [read?, h.withoutBracket_written]
  simp [time?_afterBracket, afterBlanks?_afterTime, nick?_afterGap, afterBlanks?_afterNick,
    p.message_ends, line]

/-- No two ways to write a line take its bracket for a bracket. -/
theorem TakesBracket.eq_of_written_eq (hp : p.TakesBracket) (hq : q.TakesBracket)
    (h : p.written = q.written) : p = q := by
  have hbracket : p.bracket = q.bracket := by rw [hp.bracket_eq, hq.bracket_eq, h]
  have hafterBracket : p.afterBracket = q.afterBracket := by
    rw [← hp.withoutBracket_written, ← hq.withoutBracket_written, h]
  have htime := congrArg time? hafterBracket
  rw [p.time?_afterBracket, q.time?_afterBracket] at htime
  obtain ⟨htime, hafterTime⟩ := Prod.mk.inj (Option.some.inj htime)
  have hrest := congrArg afterBlanks? hafterTime
  rw [p.afterBlanks?_afterTime, q.afterBlanks?_afterTime, Option.some.injEq] at hrest
  have hgap : p.gap = q.gap := by
    unfold afterTime at hafterTime
    exact List.append_cancel_right (hrest ▸ hafterTime)
  have hnick := congrArg nick? hrest
  rw [p.nick?_afterGap, q.nick?_afterGap] at hnick
  obtain ⟨hnick, hafterNick⟩ := Prod.mk.inj (Option.some.inj hnick)
  have hmessage := congrArg afterBlanks? hafterNick
  rw [p.afterBlanks?_afterNick, q.afterBlanks?_afterNick, Option.some.injEq] at hmessage
  have hmargin : p.margin = q.margin := by
    unfold afterNick at hafterNick
    exact List.append_cancel_right (hmessage ▸ hafterNick)
  cases p
  cases q
  congr

/-- A bracket that is taken for the beginning of the time can be taken for a bracket. -/
theorem exists_takesBracket (p : Parts) : ∃ q : Parts, q.TakesBracket ∧ q.written = p.written := by
  by_cases h : p.TakesBracket
  · exact ⟨p, h, rfl⟩
  · obtain ⟨hopen, hb⟩ := Classical.not_imp.mp h
    rw [Bool.not_eq_true] at hb
    cases htime : p.time with
    | nil => simp [written, hb, afterBracket, htime] at hopen
    | cons c time =>
      obtain rfl : c = '[' := by simpa [written, hb, afterBracket, htime] using hopen
      let q : Parts := { p with
        bracket := true
        time
        isTime := isTime_of_cons (htime ▸ p.isTime) }
      refine ⟨q, fun _ => rfl, ?_⟩
      rw [written, written, hb, afterBracket, afterBracket, htime]
      rfl

end Parts

theorem read?_eq_some_iff {s : List Char} {line : CommentLine} :
    read? s = some line ↔ ∃ p : Parts, p.TakesBracket ∧ p.written = s ∧ p.line = line := by
  constructor
  · exact exists_parts_of_read?
  · rintro ⟨p, hp, rfl, rfl⟩
    exact hp.read?_written

theorem existsUnique_parts_iff {s : List Char} :
    (∃! p : Parts, p.TakesBracket ∧ p.written = s) ↔ ∃ p : Parts, p.written = s := by
  constructor
  · rintro ⟨p, ⟨-, hs⟩, -⟩
    exact ⟨p, hs⟩
  · rintro ⟨p, rfl⟩
    obtain ⟨q, hq, hs⟩ := p.exists_takesBracket
    refine ⟨q, ⟨hq, hs⟩, ?_⟩
    rintro r ⟨hr, hrs⟩
    exact hr.eq_of_written_eq hq (hrs.trans hs.symm)

/-- A text is a comment line if and only if it can be written from the parts of one. With an opening
bracket taken for a bracket there is one way to do so, and reading gives these parts, with the nick
in small letters. So parts that are written with single spaces between them are read again. -/
theorem read?_written_parts :
    (∀ s : List Char,
      ((read? s).isSome = true ↔ ∃ p : Parts, p.written = s) ∧
      ((∃! p : Parts, p.TakesBracket ∧ p.written = s) ↔ ∃ p : Parts, p.written = s) ∧
      ∀ line, read? s = some line ↔
        ∃ p : Parts, p.TakesBracket ∧ p.written = s ∧ p.line = line) ∧
    ∀ p : Parts,
      let s := '[' :: p.time ++ "] <".toList ++ p.nick ++ "> ".toList ++ p.message
      read? s = some
        { time := String.ofList p.time, nick := String.ofList (lowered p.nick)
          message := String.ofList p.message, raw := String.ofList s } := by
  constructor
  · intro s
    refine ⟨?_, existsUnique_parts_iff, fun line => read?_eq_some_iff⟩
    rw [Option.isSome_iff_exists]
    constructor
    · rintro ⟨line, h⟩
      obtain ⟨p, -, hs, -⟩ := read?_eq_some_iff.mp h
      exact ⟨p, hs⟩
    · rintro ⟨p, rfl⟩
      obtain ⟨q, hq, hs⟩ := p.exists_takesBracket
      exact ⟨q.line, read?_eq_some_iff.mpr ⟨q, hq, hs, rfl⟩⟩
  · intro p s
    have hspace : IsGap [' '] := ⟨by simp, by simp⟩
    let q : Parts := { p with
      bracket := true
      gap := [' ']
      margin := [' ']
      isGap := hspace
      isMargin := hspace }
    have hs : q.written = s := by
      simp [q, s, Parts.written, Parts.afterBracket, Parts.afterTime, Parts.afterGap,
        Parts.afterNick]
    have hread := read?_eq_some_iff.mpr ⟨q, fun _ => rfl, hs, rfl⟩
    rw [hread, Parts.line, hs]

end CommentLine
end Minutes
