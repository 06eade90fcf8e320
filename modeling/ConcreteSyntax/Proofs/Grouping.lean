import ConcreteSyntax.Proofs.Unrolling

/-!
# Groups within groups

A sequence is its elements in order, and a choice is the first of its alternatives that does
not fail. Both ways of combining are associative: a group that occurs once within a group
of its own sort can as well be left out and its elements put in its place. What is
recognized stays the same, and so does what has to reach the top. Reports may change, since
a group begins to count anew within another, and a choice forgets all the failures that it
passes over but one.
-/

namespace ConcreteSyntax

/-! ## Sequences within sequences -/

namespace Reply

variable {r : Reply Diagnosis (List Node)} {next next' : Step} {entry : Nat}

theorem backTo_map {α β : Type} (view : α → β) (r : Reply Diagnosis α) :
    (r.map view).backTo entry = (r.backTo entry).map view := by
  cases r <;> rfl

/-- If the cursor is put back in the end, it makes no difference where the second step
leaves it. -/
theorem backTo_andThen_congr
    (h : ∀ ns q, r = .success ns q → (next q).backTo entry = (next' q).backTo entry) :
    (r.andThen next).backTo entry = (r.andThen next').backTo entry := by
  cases r with
  | success ns q =>
      simp only [andThen, bind_success]
      rw [backTo_map, backTo_map, h ns q rfl]
  | _ => rfl

/-- Nor does it where the first step leaves it. -/
theorem backTo_backTo_andThen (entry middle : Nat) (r : Reply Diagnosis (List Node))
    (next : Step) : ((r.backTo middle).andThen next).backTo entry =
      (r.andThen next).backTo entry := by
  cases r <;> rfl

end Reply

/-- Steps in order, and then further ones in order. -/
theorem Step.inOrder_append (ss ts : List Step) (p : Nat) :
    inOrder (ss ++ ts) p = (inOrder ss p).andThen (inOrder ts) := by
  induction ss generalizing p with
  | nil =>
      rw [List.nil_append, inOrder, Reply.nil_andThen]
  | cons s rest ih =>
      rw [List.cons_append, inOrder, inOrder, Reply.andThen_assoc]
      congr 1
      funext q
      exact ih q

/-! ## Trials

In a choice the reason why an alternative failed decides nothing, as long as no token was
committed to it. -/

/-- A step that may fail without a reason, and then something else may be tried. -/
abbrev Trial := Nat → Reply (Option Diagnosis) (List Node)

namespace Reply

/-- The answer without the reason of a failure to which no token was committed. -/
def unexplained {α : Type} (r : Reply Diagnosis α) : Reply (Option Diagnosis) α :=
  r.mapFailure fun d => if d.isIncomplete then some d else none

/-- If the answer is such a failure, try something else. -/
def orElse (r : Reply (Option Diagnosis) (List Node)) (next : Trial) :
    Reply (Option Diagnosis) (List Node) :=
  match r with
  | failure none q => next q
  | r => r

theorem orElse_assoc (r : Reply (Option Diagnosis) (List Node)) (next last : Trial) :
    (r.orElse next).orElse last = r.orElse fun q => (next q).orElse last := by
  cases r with
  | failure e q => cases e <;> rfl
  | _ => rfl

theorem orElse_congr {r : Reply (Option Diagnosis) (List Node)} {next next' : Trial}
    (h : ∀ q, r = .failure none q → next q = next' q) : r.orElse next = r.orElse next' := by
  cases r with
  | failure e q =>
      cases e with
      | none => exact h q rfl
      | some d => rfl
  | _ => rfl

end Reply

namespace Trial

/-- The first of the trials that does not fail for want of a token. -/
def firstOf : List Trial → Trial
  | [], p => .failure none p
  | t :: rest, p => (t p).orElse (firstOf rest)

theorem firstOf_append (ts us : List Trial) (p : Nat) :
    firstOf (ts ++ us) p = (firstOf ts p).orElse (firstOf us) := by
  induction ts generalizing p with
  | nil => rfl
  | cons t rest ih =>
      rw [List.cons_append, firstOf, firstOf, Reply.orElse_assoc]
      congr 1
      funext q
      exact ih q

end Trial

/-- What the recognizer does under a path if something else may be tried after it. -/
def ForestRecognizer.trial (r : ForestRecognizer) (path : Path) : Trial :=
  fun p => (r.step path p).unexplained

section

variable {path : Path} {r : ForestRecognizer} {p q : Nat}

theorem ForestRecognizer.trial_of_failed {d : GroupDiagnosis} (h : r path p = .failure d q)
    (hd : d.cause.isIncomplete = false) : r.trial path p = .failure none q := by
  simp [trial, step, h, Reply.uncounted, Reply.map, Reply.mapFailure, Reply.unexplained, hd]

theorem ForestRecognizer.trial_of_incomplete {d : GroupDiagnosis} (h : r path p = .failure d q)
    (hd : d.cause.isIncomplete = true) : r.trial path p = .failure (some d.cause) q := by
  simp [trial, step, h, Reply.uncounted, Reply.map, Reply.mapFailure, Reply.unexplained, hd]

/-- A trial comes to nothing where the recognizer leaves the cursor. -/
theorem ForestRecognizer.failure_of_trial {e : Option Diagnosis}
    (h : r.trial path p = .failure e q) : ∃ d, r path p = .failure d q := by
  unfold trial step at h
  cases hrun : r path p with
  | failure d m =>
      rw [hrun] at h
      simp only [Reply.uncounted, Reply.map, Reply.mapFailure, Reply.unexplained,
        Reply.failure.injEq] at h
      exact ⟨d, by rw [h.2]⟩
  | success f m => rw [hrun] at h; cases h
  | fault f => rw [hrun] at h; cases h
  | unfinished => rw [hrun] at h; cases h

end

/-- The alternatives that are left are tried alike whichever of those before got furthest. -/
theorem choiceAfter_trial (path : Path) : ∀ (es : List ForestRecognizer)
    (sofar : Option GroupDiagnosis) (p : Nat), (∀ b ∈ sofar, b.cause.isIncomplete = false) →
      ForestRecognizer.trial (choiceAfter sofar es) path p =
        Trial.firstOf (es.map fun e => e.trial path) p
  | [], none, p, _ => rfl
  | [], some d, p, h =>
      ForestRecognizer.trial_of_failed (r := choiceAfter (some d) []) rfl (h d rfl)
  | e :: rest, sofar, p, h => by
      rw [List.map_cons, Trial.firstOf]
      cases hrun : e path p with
      | failure d q =>
          by_cases hd : d.cause.isIncomplete = true
          · have hends : choiceAfter sofar (e :: rest) path p = .failure d q := by
              rw [choiceAfter, hrun]
              simp only [hd, if_true]
            rw [ForestRecognizer.trial_of_incomplete hends hd,
              ForestRecognizer.trial_of_incomplete hrun hd]
            rfl
          · have hfailed : d.cause.isIncomplete = false := Bool.eq_false_iff.mpr hd
            have hgoesOn : ForestRecognizer.trial (choiceAfter sofar (e :: rest)) path p =
                ForestRecognizer.trial (choiceAfter (some (furthest sofar d)) rest) path q := by
              unfold ForestRecognizer.trial ForestRecognizer.step
              rw [choiceAfter, hrun]
              simp only [hfailed, Bool.false_eq_true, if_false]
            rw [hgoesOn, choiceAfter_trial path rest _ q (furthest_uncommitted h hfailed),
              ForestRecognizer.trial_of_failed hrun hfailed]
            rfl
      | _ =>
          unfold ForestRecognizer.trial ForestRecognizer.step
          rw [choiceAfter, hrun]
          rfl

/-- **Choices.** Without the counts and the reasons a choice is the first of its
alternatives that does not fail. -/
theorem choice_trial (es : List ForestRecognizer) (path : Path) (p : Nat) :
    (choice es).trial path p = Trial.firstOf (es.map fun e => e.trial path) p :=
  choiceAfter_trial path es none p (by simp)

/-! ## Groups in place -/

section

variable {src : Source} {path : Path} {p bound : Nat} {xs ys : List ForestRecognizer}
variable (hxs : ∀ r ∈ xs, ForestRecognizer.Orderly src r)
variable (hys : ∀ r ∈ ys, ForestRecognizer.Orderly src r)
variable (hbound : 0 < bound) (hp : p ≤ src.size)

include hxs hys hbound hp

/-- A sequence that occurs once within a sequence is its elements in its place. -/
theorem sequence_step_nested (zs : List ForestRecognizer) :
    (sequence src (xs ++ (Cardinality.once.repeating src bound fun _ => sequence src ys) ::
        zs)).step path p = (sequence src (xs ++ ys ++ zs)).step path p := by
  rw [sequence_step _ hp, sequence_step _ hp, List.append_assoc]
  simp only [List.map_append, List.map_cons, Step.inOrder_append, Step.inOrder]
  refine Reply.backTo_andThen_congr fun ns q hq => ?_
  have hxs' : (sequence src xs).step path p = .success ns q := by
    rw [sequence_step _ hp, hq]
    rfl
  have hinside : q ≤ src.size := (sequence_orderly hxs).step_within path p hp ns q hxs'
  rw [Step.inOrder_append, once_step (sequence_orderly hys) hbound hinside,
    sequence_step _ hinside, Reply.backTo_backTo_andThen]

/-- A choice that occurs once within a choice is its alternatives in its place. -/
theorem choice_trial_nested (zs : List ForestRecognizer) :
    (choice (xs ++ (Cardinality.once.repeating src bound fun _ => choice ys) :: zs)).trial
        path p = (choice (xs ++ ys ++ zs)).trial path p := by
  rw [choice_trial, choice_trial, List.append_assoc]
  simp only [List.map_append, List.map_cons, Trial.firstOf_append, Trial.firstOf]
  refine Reply.orElse_congr fun q hq => ?_
  have hinside : q ≤ src.size := by
    rw [← choice_trial] at hq
    obtain ⟨d, hrun⟩ := ForestRecognizer.failure_of_trial hq
    obtain rfl := (choice_orderly hxs path p hp).returns d q hrun
    exact hp
  have honce : ForestRecognizer.trial (Cardinality.once.repeating src bound fun _ => choice ys)
      path q = (choice ys).trial path q :=
    congrArg Reply.unexplained (once_step (choice_orderly hys) hbound hinside)
  rw [honce, choice_trial, Trial.firstOf_append]

end

/-! ## Grouping -/

/-- But for counts, and for the reasons of a failure to which no token was committed, the
recognizers answer alike: both succeed with the same nodes and at the same end, or both fail
for the same reason after tokens were committed, or both fail before. -/
structure ForestRecognizer.SimilarAt (src : Source) (path : Path) (p : Nat)
    (r r' : ForestRecognizer) : Prop where
  same : r.trial path p = r'.trial path p
  first : (r path p).Backtracks src p
  second : (r' path p).Backtracks src p

/-- **Grouping.** Let the grammar be without violations, whatever validators there are. A
sequence that occurs once in a sequence can be replaced by its elements, and a choice that
occurs once in a choice by its alternatives. The sequences recognize the same or fail for
the same reason; the choices recognize the same, or fail for the same reason after tokens
were committed, or both fail before. -/
theorem grouping_transparent {root : String} {productions : List Production} {l : Language}
    (hbuild : Grammar.build root productions = .ok l.grammar) (src : Source) (path : Path)
    {p : Nat} (hp : p ≤ src.size) (xs zs : List Element) {ys : List Element} (hys : ys ≠ []) :
    (∃ inner nested flat, Group.build .sequence ys = .ok inner ∧
        Group.build .sequence (xs ++ .mk inner.toKind .once :: zs) = .ok nested ∧
        Group.build .sequence (xs ++ ys ++ zs) = .ok flat ∧
        ForestRecognizer.AlikeAt src path p (nested.recognizer (l.fullScope src))
          (flat.recognizer (l.fullScope src))) ∧
      ∃ inner nested flat, Group.build .choice ys = .ok inner ∧
        Group.build .choice (xs ++ .mk inner.toKind .once :: zs) = .ok nested ∧
        Group.build .choice (xs ++ ys ++ zs) = .ok flat ∧
        ForestRecognizer.SimilarAt src path p (nested.recognizer (l.fullScope src))
          (flat.recognizer (l.fullScope src)) := by
  have hsource : (l.fullScope src).source = src := l.scope_source src _
  have hbound : 0 < (l.fullScope src).bound := by
    rw [Language.fullScope, Language.scope_bound]
    exact Nat.zero_lt_of_lt (l.size_lt_stage src)
  have horderly (es : List Element) : ∀ r ∈ es.map (Element.recognizer (l.fullScope src)),
      ForestRecognizer.Orderly src r := by
    have h := (Kind.recognizer_orderly (l.scope_orderly src (l.stage src))).2
    rw [l.scope_source] at h
    exact List.forall_mem_map.mpr fun e _ => h e
  have hanswers : l.Answers src p := Language.answers_of_build hbuild hp
  have hnested (k : Kind) : xs ++ .mk k .once :: zs ≠ [] := by simp
  have hflat : xs ++ ys ++ zs ≠ [] := by simp [hys]
  constructor
  · refine ⟨_, _, _, Group.build_of_ne_nil (by simp) hys,
      Group.build_of_ne_nil (by simp) (hnested _), Group.build_of_ne_nil (by simp) hflat, ?_,
      hanswers.group _ path, hanswers.group _ path⟩
    show ForestRecognizer.step _ path p = ForestRecognizer.step _ path p
    rw [Group.recognizer_sequence, Group.recognizer_sequence, hsource]
    simp only [List.map_append, List.map_cons, Element.recognizer_mk, Group.recognizer_toKind,
      Group.recognizer_sequence, hsource]
    exact sequence_step_nested (horderly xs) (horderly ys) hbound hp _
  · refine ⟨_, _, _, Group.build_of_ne_nil (by simp) hys,
      Group.build_of_ne_nil (by simp) (hnested _), Group.build_of_ne_nil (by simp) hflat, ?_,
      hanswers.group _ path, hanswers.group _ path⟩
    rw [Group.recognizer_choice, Group.recognizer_choice]
    simp only [List.map_append, List.map_cons, Element.recognizer_mk, Group.recognizer_toKind,
      Group.recognizer_choice, hsource]
    exact choice_trial_nested (horderly xs) (horderly ys) hbound hp _

/-- An opening parenthesis. -/
def openingMark : Element := .mk (.character '(') .once

/-- What follows it: an item, and the closing parenthesis. -/
def itemAndEnd : List Element := [.mk (.reference "item") .once, .mk (.character ')') .once]

def moreItems : Element := .mk (.reference "item") .oneOrMore

/-- The text "(a)aa" is an opening parenthesis, an item and the end of its list, and items. -/
theorem grouping_transparent_items :
    Grammar.build "list" lists = .ok listLanguage.grammar ∧ 0 ≤ threeItems.size ∧
      itemAndEnd ≠ [] ∧
      (∃ inner nested flat, Group.build .sequence itemAndEnd = .ok inner ∧
        Group.build .sequence ([openingMark] ++ Element.mk inner.toKind .once :: [moreItems]) =
          .ok nested ∧
        Group.build .sequence ([openingMark] ++ itemAndEnd ++ [moreItems]) = .ok flat ∧
        ForestRecognizer.AlikeAt threeItems (.root "list") 0
          (nested.recognizer (listLanguage.fullScope threeItems))
          (flat.recognizer (listLanguage.fullScope threeItems))) ∧
      ∃ inner nested flat, Group.build .choice itemAndEnd = .ok inner ∧
        Group.build .choice ([openingMark] ++ Element.mk inner.toKind .once :: [moreItems]) =
          .ok nested ∧
        Group.build .choice ([openingMark] ++ itemAndEnd ++ [moreItems]) = .ok flat ∧
        ForestRecognizer.SimilarAt threeItems (.root "list") 0
          (nested.recognizer (listLanguage.fullScope threeItems))
          (flat.recognizer (listLanguage.fullScope threeItems)) := by
  have hitems : itemAndEnd ≠ [] := List.cons_ne_nil _ _
  exact ⟨build_lists, Nat.zero_le _, hitems, grouping_transparent build_lists threeItems
    (.root "list") (Nat.zero_le _) [openingMark] [moreItems] hitems⟩

/-- The characters in sequence. -/
def Kind.word (cs : List Char) : Kind :=
  .group .sequence (cs.map fun c => .mk (.character c) .once)

/-- The report of a choice is that of the alternative that got furthest. Within a choice it
says no longer how far that was, so another alternative is reported. -/
example :
    Group.recognizer (listLanguage.fullScope threeItems) ⟨.choice,
        [.mk (.word ['(', 'b']) .once, .mk (.word ['(', 'a', 'b']) .once]⟩ (.root "list") 0 =
      .failure ⟨0, .failed ((Path.root "list").child "@Literal") 2⟩ 0 ∧
    Group.recognizer (listLanguage.fullScope threeItems) ⟨.choice,
        [.mk (.word ['(', 'b']) .once, .mk (.group .choice
          [.mk (.word ['(', 'a', 'b']) .once]) .once]⟩ (.root "list") 0 =
      .failure ⟨0, .failed ((Path.root "list").child "@Literal") 1⟩ 0 := by
  constructor <;> rfl

end ConcreteSyntax
