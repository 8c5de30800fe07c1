import Minutes.Proofs.Json.Written
import Minutes.Roster.Reading

/-!
A roster that has been written is read back, with all participants in their order. It makes no
difference whether a single alias stands in a list or by itself.
-/
namespace Minutes
open Json

namespace RosterFile

/-- A field of a participant as it is written. A single alias may be a string of its own. -/
inductive Given where
  | aliases (names : List String)
  | soleAlias (name : String)
  | chair (flag : Bool)
  | homepage (url : String)

def Field.label : Field → String
  | .aliases => "alias"
  | .chair => "chair"
  | .homepage => "homepage"

namespace Given

def field : Given → Field
  | .aliases _ | .soleAlias _ => .aliases
  | .chair _ => .chair
  | .homepage _ => .homepage

def valueText : Given → String
  | .aliases names => listText names
  | .soleAlias name => stringText name
  | .chair flag => flagText flag
  | .homepage url => stringText url

def text (g : Given) : String := memberText g.field.label g.valueText

/-- The draft of a participant after the field has been read. -/
def enter (d : Draft) : Given → Draft
  | .aliases names => { d with aliases := some names }
  | .soleAlias name => { d with aliases := some [name] }
  | .chair flag => { d with chair := some flag }
  | .homepage url => { d with homepage := some (some url) }

end Given

/-- The aliases as they are written, if there are any. -/
def givenAliases (bare : Bool) : List String → List Given
  | [] => []
  | [name] => if bare then [.soleAlias name] else [.aliases [name]]
  | names => [.aliases names]

end RosterFile

open RosterFile

namespace Participant

/-- The fields of a participant that are written. -/
def given (p : Participant) (bare : Bool) : List Given :=
  givenAliases bare p.aliases ++ [.chair p.chair] ++ (p.homepage.map Given.homepage).toList

/-- The text of a participant. If `bare` is set, a single alias stands in it without brackets. -/
def jsonWith (p : Participant) (bare : Bool) : String :=
  "\x7b" ++ ",".intercalate ((p.given bare).map Given.text) ++ "\x7d"

theorem jsonWith_false (p : Participant) : p.jsonWith false = p.json := by
  have haliases : (givenAliases false p.aliases).map Given.text =
      if p.aliases.isEmpty then [] else [memberText "alias" (listText p.aliases)] := by
    rcases p.aliases with - | ⟨a, - | ⟨b, names⟩⟩ <;> rfl
  rw [jsonWith, json, given, membersOf, List.map_append, List.map_append, haliases]
  cases p.homepage <;> rfl

end Participant

namespace RosterFile

/-- A participant in a roster file, with the white space around the name and the value. -/
structure Entry where
  participant : Participant
  bare : Bool := false
  beforeName : Blanks := .none
  beforeColon : Blanks := .none
  beforeValue : Blanks := .none
  afterValue : Blanks := .none

def Entry.chars (e : Entry) : List Char :=
  e.beforeName ++ ((stringText e.participant.name).toList ++ (e.beforeColon ++ ':' ::
    (e.beforeValue ++ ((e.participant.jsonWith e.bare).toList ++ e.afterValue))))

/-- The text of a roster file. -/
def fileText (lead inner trail : Blanks) (entries : List Entry) : String :=
  String.ofList
    (lead ++ '\x7b' :: (inner ++ ([','].intercalate (entries.map Entry.chars) ++ '\x7d' :: trail)))

section values

variable (rest : List Char)

theorem mapM_text? (names : List String) :
    (names.map fun s => Json.Value.string s.toList).mapM Value.text? = some names := by
  induction names with
  | nil => rfl
  | cons s names ih =>
    rw [List.map_cons, List.mapM_cons, ih, Value.text?, String.ofList_toList]
    rfl

theorem toList_listText (names : List String) :
    (listText names).toList =
      '[' :: (listed true (names.map fun s => (stringText s).toList) ++ [']']) := by
  simp [listText, intercalate_eq_listed, Function.comp_def]

theorem readAliases_listText (names : List String) :
    readAliases ((listText names).toList ++ rest) = .ok (names, rest) := by
  have hparts := length_le_listed true (names.map fun s => (stringText s).toList)
    (by simp [toList_stringText])
  rw [List.length_map] at hparts
  have hroom : nestingLimit - 2 = 124 + 1 := rfl
  rw [toList_listText, List.cons_append, List.append_assoc, List.singleton_append, readAliases,
    hroom, valueWithin_list _ 124 names rest (by simp; omega)]
  simp only [bind, Except.bind, aliasesOf?, mapM_text?]

theorem readAliases_stringText (name : String) :
    readAliases ((stringText name).toList ++ rest) = .ok ([name], rest) := by
  rw [readAliases, valueWithin_stringText]
  simp only [bind, Except.bind, aliasesOf?, String.ofList_toList]

theorem readChair_flagText (flag : Bool) :
    readChair ((flagText flag).toList ++ rest) = .ok (flag, rest) := by
  cases flag with
  | true => simp [flagText, readChair, skipBlanks, isBlank, word, Except.map]
  | false => simp [flagText, readChair, skipBlanks, isBlank, word, Except.map]

theorem readHomepage_stringText (url : String) :
    readHomepage ((stringText url).toList ++ rest) = .ok (some url, rest) := by
  rw [readHomepage, stringText_append, skipBlanks_cons (by decide)]
  simp [string_written, Except.map]

end values

theorem Field.ofKey?_label (field : Field) : ofKey? field.label.toList = some field := by
  cases field <;> decide

namespace Given

/-- A field is read back into the draft. -/
theorem read_valueText (g : Given) (d : Draft) (rest : List Char) :
    g.field.read d (g.valueText.toList ++ rest) = .ok (g.enter d, rest) := by
  cases g with
  | aliases names =>
    simp only [field, valueText, Field.read, readAliases_listText]
    rfl
  | soleAlias name =>
    simp only [field, valueText, Field.read, readAliases_stringText]
    rfl
  | chair flag =>
    simp only [field, valueText, Field.read, readChair_flagText]
    rfl
  | homepage url =>
    simp only [field, valueText, Field.read, readHomepage_stringText]
    rfl

theorem isGiven_enter (g : Given) (d : Draft) (field : Field) :
    field.isGiven (g.enter d) = (decide (field = g.field) || field.isGiven d) := by
  cases g <;> cases field <;> rfl

theorem toList_text (g : Given) :
    g.text.toList = (stringText g.field.label).toList ++ (':' :: g.valueText.toList) := by
  simp [text, memberText]

end Given

/-- Fields of different kinds are read back into the draft, one after the other. -/
theorem members_written (fuel : Nat) (d : Draft) (first : Bool) (given : List Given)
    (hnew : ∀ g ∈ given, g.field.isGiven d = false)
    (hdistinct : (given.map Given.field).Nodup) (h : given.length < fuel) (rest : List Char) :
    members fuel d first (listed first (given.map fun g => g.text.toList) ++ '\x7d' :: rest) =
      .ok (given.foldl Given.enter d, rest) := by
  induction given generalizing fuel d first with
  | nil =>
    obtain ⟨fuel, rfl⟩ := Nat.exists_eq_add_of_lt h
    rw [members, List.map_nil, listed, List.nil_append, nextItem_closing (by decide)]
    rfl
  | cons g given ih =>
    obtain ⟨fuel, rfl⟩ := Nat.exists_eq_add_of_le' (Nat.lt_of_le_of_lt (Nat.zero_le _) h)
    rw [List.map_cons, List.nodup_cons] at hdistinct
    have hnext : nextItem '\x7d' first _ = _ := nextItem_listed (by decide) (by decide) first .none
      g.field.label (':' :: g.valueText.toList) (given.map fun g => g.text.toList)
      ('\x7d' :: rest)
    rw [Blanks.none, List.nil_append, ← g.toList_text] at hnext
    have hcolon (s : List Char) : colon (':' :: s) = .ok s := colon_append .none s
    have hrest := ih fuel (g.enter d) false (fun g' hg' => ?_) hdistinct.2 (by simpa using h)
    · rw [members, List.map_cons, hnext]
      simp only [bind, Except.bind, if_true, key_stringText, Field.ofKey?_label,
        hnew g List.mem_cons_self, Bool.false_eq_true, if_false, List.cons_append, hcolon,
        Given.read_valueText, hrest]
      rfl
    · have hother : g'.field ≠ g.field := by
        rintro heq
        exact hdistinct.1 (heq ▸ List.mem_map_of_mem hg')
      rw [Given.isGiven_enter, hnew g' (List.mem_cons_of_mem g hg')]
      simpa using hother

/-- A participant is read back from the fields that are written. -/
theorem participant_given (p : Participant) (bare : Bool) :
    ((p.given bare).foldl Given.enter {}).participant p.name = p := by
  obtain ⟨name, aliases, chair, homepage⟩ := p
  rcases aliases with - | ⟨a, - | ⟨b, names⟩⟩ <;> cases bare <;> cases homepage <;> rfl

theorem distinct_given (p : Participant) (bare : Bool) :
    ((p.given bare).map Given.field).Nodup := by
  obtain ⟨name, aliases, chair, homepage⟩ := p
  rcases aliases with - | ⟨a, - | ⟨b, names⟩⟩ <;> cases bare <;> cases homepage <;>
    simp [Participant.given, givenAliases, Given.field]

theorem toList_jsonWith (p : Participant) (bare : Bool) :
    (p.jsonWith bare).toList =
      '\x7b' :: (listed true ((p.given bare).map fun g => g.text.toList) ++ ['\x7d']) := by
  simp [Participant.jsonWith, intercalate_eq_listed, Function.comp_def]

theorem draft_written (gap : Blanks) (p : Participant) (bare : Bool) (rest : List Char) :
    draft (gap ++ ((p.jsonWith bare).toList ++ rest)) =
      .ok ((p.given bare).foldl Given.enter {}, rest) := by
  have hparts := length_le_listed true ((p.given bare).map fun g => g.text.toList)
    (by simp [Given.toList_text])
  rw [List.length_map] at hparts
  rw [draft, skipBlanks_append, toList_jsonWith, List.cons_append, List.append_assoc,
    List.singleton_append, skipBlanks_cons (by decide)]
  exact members_written _ {} true (p.given bare) (fun g _ => by cases g <;> rfl)
    (distinct_given p bare) (by simp; omega) rest

/-- All participants are read back in their order. -/
theorem entries_written (fuel : Nat) (first : Bool) (gap : Blanks) (given : List Entry)
    (h : given.length < fuel) (rest : List Char) :
    entries fuel first
        (gap ++ (listed first (given.map Entry.chars) ++ '\x7d' :: rest)) =
      .ok (given.map Entry.participant, rest) := by
  induction given generalizing fuel first gap with
  | nil =>
    obtain ⟨fuel, rfl⟩ := Nat.exists_eq_add_of_lt h
    rw [entries, nextItem_append, List.map_nil, listed, List.nil_append,
      nextItem_closing (by decide)]
    rfl
  | cons e given ih =>
    obtain ⟨fuel, rfl⟩ := Nat.exists_eq_add_of_le' (Nat.lt_of_le_of_lt (Nat.zero_le _) h)
    have hrest := ih fuel false e.afterValue (by simpa using h)
    rw [entries, nextItem_append, List.map_cons, Entry.chars,
      nextItem_listed (by decide) (by decide)]
    simp only [bind, Except.bind, if_true, key_stringText, List.append_assoc, List.cons_append,
      colon_append, draft_written, hrest, String.ofList_toList, participant_given]
    rfl

theorem read_fileText (lead inner trail : Blanks) (given : List Entry) :
    RosterFile.read (fileText lead inner trail given).toList =
      .ok (given.map Entry.participant) := by
  have hparts := length_le_listed true (given.map Entry.chars)
    (by simp [Entry.chars, toList_stringText])
  rw [List.length_map] at hparts
  have hentries := entries_written ((inner ++ (listed true (given.map Entry.chars) ++
    '\x7d' :: trail.1)).length + 1) true inner given (by simp; omega) trail
  have htrail : skipBlanks trail = [] := by
    simpa [skipBlanks] using skipBlanks_append trail []
  rw [fileText, String.toList_ofList, RosterFile.read, skipBlanks_append,
    skipBlanks_cons (by decide), intercalate_eq_listed]
  simp only [if_true, hentries, bind, Except.bind, htrail]
  rfl

end RosterFile

namespace Roster

/-- The compact text of a roster: an object of the participants' own texts under their names. -/
def json (roster : Roster) : String :=
  "\x7b" ++ ",".intercalate (roster.map fun p => memberText p.name p.json) ++ "\x7d"

theorem fileText_compact (roster : Roster) :
    fileText .none .none .none (roster.map fun p => { participant := p }) = roster.json := by
  have hparts : (roster.map fun p => { participant := p }).map Entry.chars =
      (roster.map fun p => memberText p.name p.json).map String.toList := by
    rw [List.map_map, List.map_map]
    refine List.map_congr_left fun p _ => ?_
    simp [Entry.chars, Blanks.none, memberText, Participant.jsonWith_false]
  apply String.toList_injective
  rw [fileText, String.toList_ofList, hparts]
  simp [json, Blanks.none]

/-- A roster is read back from its own text. So it is from any other layout of the same object, in
which each single alias may stand with brackets around it or without. -/
theorem read_json :
    (∀ roster : Roster, Roster.read roster.json = .ok roster) ∧
    ∀ (lead inner trail : Blanks) (given : List Entry),
      Roster.read (fileText lead inner trail given) = .ok (given.map Entry.participant) := by
  refine ⟨fun roster => ?_, read_fileText⟩
  have hread := read_fileText .none .none .none (roster.map fun p => { participant := p })
  rw [fileText_compact, List.map_map] at hread
  exact hread.trans (congrArg Except.ok (List.map_id roster))

end Roster
end Minutes
