import Minutes.Proofs.Text.Label
import Minutes.Transcript.Rule

/-!
The order of the rules. Votes apart, the messages that a rule claims begin with labels of its own,
and so no message is claimed by two rules. The order matters for two tests alone: that of the nick,
which goes after the directives and before the noise of the chat, and that of votes, which is last.
-/
namespace Minutes.Rule
open Text

/-- The rules whose tests come before that of the nick. -/
def directives : List Rule :=
  [.scribe, .chair, .meeting, .present, .audio, .date, .topic, .action, .agenda, .proposal,
   .resolution, .useCase, .totalPresent]

/-- The rules whose messages are noise of the chat. -/
def noise : List Rule := [.bot, .queue]

/-- The labels by which a message begins that a rule claims. -/
def labels : Rule → List String
  | .scribe => ["scribe:", "scribenick:"]
  | .chair => ["chair:"]
  | .meeting => ["meeting:"]
  | .present => ["present:", "present+"]
  | .audio => ["audio:"]
  | .date => ["date:"]
  | .topic => ["topic:"]
  | .action => ["action:"]
  | .agenda => ["agenda:"]
  | .proposal => ["proposal:", "proposed:"]
  | .resolution => ["resolution:", "resolved:"]
  | .useCase => ["use case:", "usecase:"]
  | .totalPresent => ["total present:"]
  | .bot => ["voip", "zakim", "trackbot", "rrsagent"]
  | .queue => ["q+", "q-", "q?", "ack"]
  | .vote => []

/-- The rules that claim a message by a label at its head. -/
def labelled : List Rule := directives ++ noise

theorem mem_labelled {rule : Rule} (h : rule ≠ .vote) : rule ∈ labelled := by
  cases rule with
  | vote => exact absurd rfl h
  | _ => decide

theorem apart_labels : Apart (labelled.flatMap labels) :=
  ⟨by decide +kernel, by simp [labelled, directives, noise, labels]⟩

theorem eq_of_mem_labels :
    ∀ a ∈ labelled, ∀ b ∈ labelled, ∀ label ∈ a.labels, label ∈ b.labels → a = b := by
  decide +kernel

theorem argument?_eq_none {rule : Rule} {s : List Char} (hr : rule ≠ .vote)
    (h : ∀ label ∈ rule.labels, afterLabel? label s = none) : rule.argument? s = none := by
  cases rule with
  | vote => exact absurd rfl hr
  | _ => simp_all [labels, argument?, afterAnyLabel?, addressesBot, managesQueue, noArgument]

/-- A message that a rule claims begins with one of its labels. -/
theorem exists_label_of_argument? {rule : Rule} {s : List Char} (hr : rule ≠ .vote)
    (h : (rule.argument? s).isSome = true) :
    ∃ label ∈ rule.labels, ∃ head rest, s = head ++ rest ∧ Folds label.toList head := by
  by_contra hnone
  have hlabels : ∀ label ∈ rule.labels, afterLabel? label s = none := by
    intro label hlabel
    by_contra hsome
    obtain ⟨rest, hrest⟩ := Option.ne_none_iff_exists'.mp hsome
    obtain ⟨head, hs, hhead⟩ := afterLabelChars?_eq_some_iff.mp hrest
    exact hnone ⟨label, hlabel, head, rest, hs, hhead⟩
  rw [argument?_eq_none hr hlabels] at h
  cases h

/-- Votes apart, a message is claimed by one rule at most. -/
theorem eq_of_argument? {a b : Rule} {s : List Char} (ha : a ≠ .vote) (hb : b ≠ .vote)
    (hsa : (a.argument? s).isSome = true) (hsb : (b.argument? s).isSome = true) : a = b := by
  obtain ⟨label, hlabel, head, rest, rfl, hhead⟩ := exists_label_of_argument? ha hsa
  obtain ⟨label', hlabel', head', rest', hs, hhead'⟩ := exists_label_of_argument? hb hsb
  obtain ⟨rfl, -⟩ := apart_labels.eq_of_folds
    (List.mem_flatMap_of_mem (mem_labelled ha) hlabel)
    (List.mem_flatMap_of_mem (mem_labelled hb) hlabel') hhead hhead' hs
  exact eq_of_mem_labels a (mem_labelled ha) b (mem_labelled hb) label hlabel hlabel'

/-- The rule that claims a line, with its argument, if the tests are tried in a given order. -/
def claimingIn? (order : List Test) (line : CommentLine) : Option (Rule × String) :=
  (order.findSome? (·.result? line)).map fun (rule, argument) => (rule, String.ofList argument)

/-- An order of all tests in which that of the nick goes after the directives and before the noise,
and that of votes is last. -/
structure KeepsNickTest (order : List Test) : Prop where
  perm : order.Perm tests
  directives_before : ∀ rule ∈ directives,
    order.idxOf (.message rule) < order.idxOf .botNick
  noise_after : ∀ rule ∈ noise, order.idxOf .botNick < order.idxOf (.message rule)
  vote_last : order.getLast? = some (.message .vote)

/-- The place of a test among those whose order matters. -/
def Test.place : Test → Nat
  | .message .bot | .message .queue => 2
  | .message .vote => 3
  | .message _ => 0
  | .botNick => 1

theorem mem_tests (test : Test) : test ∈ tests := by
  cases test with
  | message rule => cases rule <;> decide
  | botNick => decide

namespace KeepsNickTest

variable {order : List Test}

theorem idxOf_lt_vote (h : KeepsNickTest order) {test : Test} (hne : test ≠ .message .vote) :
    order.idxOf test < order.idxOf (.message .vote) := by
  have hnodup : order.Nodup := h.perm.nodup_iff.mpr (by decide)
  have hmem : test ∈ order := h.perm.mem_iff.mpr (mem_tests test)
  obtain ⟨earlier, rfl⟩ := List.getLast?_eq_some_iff.mp h.vote_last
  have hearlier : test ∈ earlier := (List.mem_append.mp hmem).resolve_right (by simpa using hne)
  have hvote : .message .vote ∉ earlier := by
    intro hvote
    exact (List.nodup_append.mp hnodup).2.2 _ hvote _ (List.mem_singleton_self _) rfl
  rw [List.idxOf_append_of_mem hearlier, List.idxOf_append_of_notMem hvote]
  exact (List.idxOf_lt_length_of_mem hearlier).trans_le (Nat.le_add_right _ _)

/-- Where a test stands in the order, as its place tells. -/
theorem idxOf_cases (h : KeepsNickTest order) (test : Test) :
    let nick := order.idxOf .botNick
    let vote := order.idxOf (.message .vote)
    test.place = 0 ∧ order.idxOf test < nick ∨ test.place = 1 ∧ order.idxOf test = nick ∨
      test.place = 2 ∧ nick < order.idxOf test ∧ order.idxOf test < vote ∨
      test.place = 3 ∧ order.idxOf test = vote := by
  intro nick vote
  cases test with
  | botNick => exact .inr (.inl ⟨rfl, rfl⟩)
  | message rule =>
    cases rule with
    | vote => exact .inr (.inr (.inr ⟨rfl, rfl⟩))
    | bot | queue =>
      exact .inr (.inr (.inl ⟨rfl, h.noise_after _ (by decide), h.idxOf_lt_vote (by decide)⟩))
    | _ => exact .inl ⟨rfl, h.directives_before _ (by decide)⟩

/-- The tests stand in the order of their places. -/
theorem pairwise_place (h : KeepsNickTest order) :
    order.Pairwise fun a b => a.place ≤ b.place := by
  have hnodup : order.Nodup := h.perm.nodup_iff.mpr (by decide)
  have hnick : order.idxOf .botNick < order.idxOf (.message .vote) := h.idxOf_lt_vote (by decide)
  rw [List.pairwise_iff_getElem]
  intro i j hi hj hij
  have hfirst := h.idxOf_cases order[i]
  have hsecond := h.idxOf_cases order[j]
  simp only [hnodup.idxOf_getElem] at hfirst hsecond
  omega

/-- The first test that a line passes has the least place of all that it passes. -/
theorem exists_first (h : KeepsNickTest order) {line : CommentLine} {result : Rule × List Char}
    (hfirst : order.findSome? (·.result? line) = some result) :
    ∃ test : Test, test.result? line = some result ∧
      ∀ other : Test, (other.result? line).isSome = true → test.place ≤ other.place := by
  have hsorted := h.pairwise_place
  have hall : ∀ other, other ∈ order := fun other => h.perm.mem_iff.mpr (mem_tests other)
  obtain ⟨before, test, after, rfl, htest, hbefore⟩ := List.findSome?_eq_some_iff.mp hfirst
  refine ⟨test, htest, fun other hpass => ?_⟩
  rcases List.mem_append.mp (hall other) with hother | hother
  · rw [hbefore other hother] at hpass
    cases hpass
  · rcases List.mem_cons.mp hother with rfl | hother
    · exact le_rfl
    · exact List.rel_of_pairwise_cons (List.pairwise_append.mp hsorted).2.1 hother

end KeepsNickTest

theorem keepsNickTest_tests : KeepsNickTest tests :=
  ⟨.refl _, by decide, by decide, rfl⟩

/-- No line passes two tests of one place. -/
theorem eq_of_place_eq {line : CommentLine} {a b : Test} (ha : (a.result? line).isSome = true)
    (hb : (b.result? line).isSome = true) (h : a.place = b.place) : a = b := by
  have hvote : ∀ rule, (Test.message rule).place = 3 ↔ rule = .vote := by
    intro rule
    cases rule <;> decide
  have hnick : ∀ rule, (Test.message rule).place ≠ 1 := by
    intro rule
    cases rule <;> decide
  cases a with
  | botNick =>
    cases b with
    | botNick => rfl
    | message rule => exact absurd h.symm (hnick rule)
  | message rule =>
    cases b with
    | botNick => exact absurd h (hnick rule)
    | message rule' =>
      simp only [Test.result?, Option.isSome_map] at ha hb
      have hvotes : rule = .vote ↔ rule' = .vote := by rw [← hvote, ← hvote, h]
      by_cases hr : rule = .vote
      · rw [hr, hvotes.mp hr]
      · rw [eq_of_argument? hr (hr ∘ hvotes.mpr) ha hb]

/-- Two orders that keep the test of the nick in its place let the same test claim a line. -/
theorem KeepsNickTest.findSome?_eq {order order' : List Test} (h : KeepsNickTest order)
    (h' : KeepsNickTest order') (line : CommentLine) :
    order.findSome? (·.result? line) = order'.findSome? (·.result? line) := by
  have hperm := h.perm.trans h'.perm.symm
  cases hfirst : order.findSome? (·.result? line) with
  | none =>
    rw [List.findSome?_eq_none_iff] at hfirst
    exact (List.findSome?_eq_none_iff.mpr fun test ht =>
      hfirst test (hperm.mem_iff.mpr ht)).symm
  | some result =>
    obtain ⟨test, htest, hleast⟩ := h.exists_first hfirst
    have hpass : (test.result? line).isSome = true := Option.isSome_of_eq_some htest
    have hmem : test ∈ order' := h'.perm.mem_iff.mpr (mem_tests test)
    obtain ⟨result', hfirst'⟩ := Option.isSome_iff_exists.mp
      (List.findSome?_isSome_iff.mpr ⟨test, hmem, hpass⟩)
    obtain ⟨test', htest', hleast'⟩ := h'.exists_first hfirst'
    have hpass' : (test'.result? line).isSome = true := Option.isSome_of_eq_some htest'
    have hplace := le_antisymm (hleast test' hpass') (hleast' test hpass)
    rw [eq_of_place_eq hpass hpass' hplace, htest'] at htest
    rw [hfirst', htest]

/-- Votes apart, no message is claimed by two rules. So the order of the tests makes no difference,
as long as that of the nick stays after all the directives and before the noise, and that of votes
stays last. -/
theorem claiming_reordered :
    (∀ (s : List Char) (a b : Rule), a ≠ .vote → b ≠ .vote → (a.argument? s).isSome = true →
      (b.argument? s).isSome = true → a = b) ∧
    ∀ order, KeepsNickTest order → ∀ line, claimingIn? order line = claiming? line := by
  refine ⟨fun s a b ha hb => eq_of_argument? ha hb, fun order horder line => ?_⟩
  rw [claimingIn?, horder.findSome?_eq keepsNickTest_tests, claiming?]

theorem claiming_reordered_reversed :
    let order := directives.reverse.map Test.message ++
      [.botNick, .message .queue, .message .bot, .message .vote]
    let line : CommentLine := ⟨"1", "zakim", "Topic: q+ +1", "[1] <Zakim> Topic: q+ +1"⟩
    (KeepsNickTest order ∧ order ≠ tests ∧
      (Rule.topic.argument? line.message.toList).isSome = true) ∧
    (∀ rule : Rule, rule ≠ .vote → (rule.argument? line.message.toList).isSome = true →
      rule = .topic) ∧
    claimingIn? order line = claiming? line ∧ claiming? line = some (.topic, "q+ +1") := by
  intro order line
  have horder : KeepsNickTest order :=
    ⟨by decide, by decide, by decide, rfl⟩
  have htopic : (Rule.topic.argument? line.message.toList).isSome = true := by decide +kernel
  exact ⟨⟨horder, by decide, htopic⟩,
    fun rule hr hsome => claiming_reordered.1 _ rule .topic hr (by decide) hsome htopic,
    claiming_reordered.2 order horder line, by decide +kernel⟩

/-- A directive that is tried after the nick is lost to the bots, even if the last of the directives
still comes before the nick. -/
theorem claiming_reordered_after_nick :
    let order := (directives.erase .scribe).map Test.message ++
      [.botNick, .message .scribe, .message .bot, .message .queue, .message .vote]
    let line : CommentLine := ⟨"1", "zakim", "scribe: ann", "[1] <zakim> scribe: ann"⟩
    order.Perm tests ∧ order.idxOf (.message .totalPresent) < order.idxOf .botNick ∧
      (∀ rule ∈ [.bot, .queue, .vote], order.idxOf .botNick < order.idxOf (.message rule)) ∧
      order.getLast? = some (.message .vote) ∧
    CommentLine.read? line.raw.toList = some line ∧
    claiming? line = some (.scribe, "ann") ∧ claimingIn? order line = some (.bot, "") := by
  decide +kernel

end Minutes.Rule
