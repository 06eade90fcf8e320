import ConcreteSyntax.Proofs.Slices
import ConcreteSyntax.Session

/-!
# Checkpoints

Whatever is done with a session, its cursor and all the positions that it remembers stay
within the input. Between the beginning of a checkpoint and its end others are begun and
closed in balance, and actions in balance do no more to a session than to move its cursor.
So the end of a checkpoint finds the position that was remembered at its beginning: to roll
it back gives the session as it was, to commit it leaves the cursor where it is.
-/

namespace ConcreteSyntax

/-! ## Actions in balance -/

namespace Action

/-- It closes the innermost checkpoint. -/
def Closes (a : Action) : Prop := a = .commit ∨ a = .rollback

/-- It leaves the checkpoints alone. -/
def IsPlain (a : Action) : Prop := a ≠ .begin ∧ ¬ a.Closes

/-- Actions that close just the checkpoints that they begin. -/
inductive Balanced : List Action → Prop where
  | nil : Balanced []
  | plain {a : Action} (leaves : a.IsPlain) : Balanced [a]
  | append {first second : List Action} (before : Balanced first) (after : Balanced second) :
      Balanced (first ++ second)
  | closed {inside : List Action} {close : Action} (between : Balanced inside)
      (closes : close.Closes) : Balanced (.begin :: (inside ++ [close]))

theorem plain_begin_or_closes (a : Action) : a.IsPlain ∨ a = .begin ∨ a.Closes := by
  by_cases hbegin : a = .begin
  · exact Or.inr (Or.inl hbegin)
  · by_cases hcloses : a.Closes
    · exact Or.inr (Or.inr hcloses)
    · exact Or.inl ⟨hbegin, hcloses⟩

end Action

/-- The action found no tokens or no checkpoint, or was outside its domain. -/
def Answer.refuses : Answer → Bool
  | token none | tokens none | noCheckpoint | fault _ => true
  | _ => false

theorem Cursor.reset_of_le (c : Cursor) {q : Nat} (h : q ≤ c.source.size) :
    c.reset q = .ok { c with position := q } := by
  rw [reset, Source.seek_of_le h]
  rfl

namespace Session

/-! ## Runs -/

/-- The session after several actions. -/
def run (s : Session) (script : List Action) : Session :=
  script.foldl (fun s a => (s.perform a).2) s

variable {s : Session} {a : Action} {script : List Action} {q : Nat}

theorem run_cons (s : Session) (a : Action) (rest : List Action) :
    s.run (a :: rest) = (s.perform a).2.run rest := rfl

theorem run_append (s : Session) (first second : List Action) :
    s.run (first ++ second) = (s.run first).run second := List.foldl_append

theorem run_snoc (s : Session) (script : List Action) (a : Action) :
    s.run (script ++ [a]) = ((s.run script).perform a).2 := by
  rw [run_append]
  rfl

/-- Each answer is that of an action to the session that those before have led to. -/
theorem mem_performAll_iff {r : Answer × Session} : r ∈ s.performAll script ↔
    ∃ before a after, script = before ++ a :: after ∧ r = (s.run before).perform a := by
  induction script generalizing s with
  | nil => simp [performAll]
  | cons b rest ih =>
      rw [performAll, List.mem_cons, ih]
      constructor
      · rintro (rfl | ⟨before, a, after, rfl, rfl⟩)
        · exact ⟨[], b, rest, rfl, rfl⟩
        · exact ⟨b :: before, a, after, rfl, rfl⟩
      · rintro ⟨before, a, after, hsplit, rfl⟩
        cases before with
        | nil =>
            obtain ⟨rfl, rfl⟩ := List.cons.inj hsplit
            exact Or.inl rfl
        | cons c before =>
            obtain ⟨rfl, rfl⟩ := List.cons.inj hsplit
            exact Or.inr ⟨before, a, after, rfl, rfl⟩

/-! ## Single actions -/

/-- The session with its cursor elsewhere. -/
def movedTo (s : Session) (q : Nat) : Session :=
  { s with cursor := { s.cursor with position := q } }

/-- The cursor and the beginnings of the open checkpoints lie within the input. -/
structure Inside (s : Session) : Prop where
  cursor : s.position ≤ s.cursor.source.size
  entries : ∀ entry ∈ s.checkpoints, entry ≤ s.cursor.source.size

theorem Inside.of_le (h : s.Inside) (hq : q ≤ s.cursor.source.size) : (s.movedTo q).Inside :=
  ⟨hq, h.entries⟩

/-- The action does no more than to move the cursor within the input, and not even that if it
is refused. -/
def OnlyMoves (s : Session) (a : Action) : Prop :=
  ∃ q ≤ s.cursor.source.size, (s.perform a).2 = s.movedTo q ∧
    ((s.perform a).1.refuses = true → q = s.position)

theorem onlyMoves_of_answer {answer : Answer} (h : s.perform a = (answer, s.movedTo q))
    (hq : q ≤ s.cursor.source.size) (hrefused : answer.refuses = true → q = s.position) :
    s.OnlyMoves a := by
  refine ⟨q, hq, ?_, ?_⟩ <;> rw [h]
  exact hrefused

theorem Inside.stays (hs : s.Inside) {answer : Answer} (h : s.perform a = (answer, s)) :
    s.OnlyMoves a :=
  onlyMoves_of_answer h hs.cursor fun _ => rfl

/-- **Moves.** An action that leaves the checkpoints alone only moves the cursor. -/
theorem Inside.perform_plain (hs : s.Inside) (ha : a.IsPlain) : s.OnlyMoves a := by
  have hcursor : s.cursor.position ≤ s.cursor.source.size := hs.cursor
  cases a with
  | next =>
      cases hpeek : s.cursor.peek with
      | some t =>
          have hnext : s.perform .next = (.token (some t), s.movedTo (s.position + 1)) := by
            simp only [perform, Cursor.next, hpeek]
            rfl
          exact onlyMoves_of_answer hnext (Source.lt_size_of_token? hpeek) nofun
      | none =>
          have hnext : s.perform .next = (.token none, s) := by
            simp only [perform, Cursor.next, hpeek]
          exact hs.stays hnext
  | nextMany n =>
      by_cases hn : n ≤ s.cursor.source.size - s.cursor.position
      · obtain ⟨ts, hpeek⟩ : ∃ ts, s.cursor.peekMany n = some ts := ⟨_, if_pos hn⟩
        have hnext : s.perform (.nextMany n) =
            (.tokens (some ts), s.movedTo (s.cursor.position + n)) := by
          simp only [perform, Cursor.nextMany, hpeek]
          rfl
        exact onlyMoves_of_answer hnext (by omega) nofun
      · have hpeek : s.cursor.peekMany n = none := if_neg hn
        have hnext : s.perform (.nextMany n) = (.tokens none, s) := by
          simp only [perform, Cursor.nextMany, hpeek]
        exact hs.stays hnext
  | reset target =>
      by_cases ht : target ≤ s.cursor.source.size
      · have hreset : s.perform (.reset target) = (.moved, s.movedTo target) := by
          rw [perform, s.cursor.reset_of_le ht]
          rfl
        exact onlyMoves_of_answer hreset ht nofun
      · have hreset : s.cursor.reset target =
            .error (.beyondEnd target s.cursor.source.size) := by
          rw [Cursor.reset, Source.seek, if_neg ht]
          rfl
        have hrefused : s.perform (.reset target) =
            (.fault (.beyondEnd target s.cursor.source.size), s) := by
          rw [perform, hreset]
          rfl
        exact hs.stays hrefused
  | segmentFrom start =>
      cases hsegment : s.cursor.segmentFrom start with
      | ok seg =>
          have h : s.perform (.segmentFrom start) = (.segment seg, s) := by
            simp only [perform, hsegment]
          exact hs.stays h
      | error f =>
          have h : s.perform (.segmentFrom start) = (.fault f, s) := by
            simp only [perform, hsegment]
          exact hs.stays h
  | begin => exact absurd rfl ha.1
  | commit => exact absurd (Or.inl rfl) ha.2
  | rollback => exact absurd (Or.inr rfl) ha.2
  | _ => exact hs.stays rfl

theorem perform_commit {entry : Nat} {outer : List Nat} (h : s.checkpoints = entry :: outer) :
    s.perform .commit = (.closed true, { s with checkpoints := outer }) := by
  simp [perform, close, h]

theorem Inside.perform_rollback (hs : s.Inside) {entry : Nat} {outer : List Nat}
    (h : s.checkpoints = entry :: outer) :
    s.perform .rollback = (.closed false, { s with checkpoints := outer }.movedTo entry) := by
  have hentry : entry ≤ s.cursor.source.size := hs.entries entry (h ▸ List.mem_cons_self)
  show s.close false = _
  simp only [close, h, Bool.false_eq_true, if_false, s.cursor.reset_of_le hentry]
  rfl

/-- There is nothing to close if no checkpoint is open. -/
theorem perform_closes_nil (ha : a.Closes) (h : s.checkpoints = []) :
    s.perform a = (.noCheckpoint, s) := by
  rcases ha with rfl | rfl <;> simp [perform, close, h]

/-- What is closed is the innermost checkpoint, and the cursor is moved at most. -/
theorem Inside.perform_closes (hs : s.Inside) (ha : a.Closes) {entry : Nat} {outer : List Nat}
    (h : s.checkpoints = entry :: outer) :
    ∃ q ≤ s.cursor.source.size,
      s.perform a = (.closed (a == .commit), { s with checkpoints := outer }.movedTo q) := by
  rcases ha with rfl | rfl
  · exact ⟨s.position, hs.cursor, perform_commit h⟩
  · exact ⟨entry, hs.entries entry (h ▸ List.mem_cons_self), hs.perform_rollback h⟩

/-- **Every action stays inside.** -/
theorem Inside.after_action (hs : s.Inside) (a : Action) :
    (s.perform a).2.Inside ∧ (s.perform a).2.cursor.source = s.cursor.source := by
  rcases a.plain_begin_or_closes with ha | rfl | ha
  · obtain ⟨q, hq, hmoved, -⟩ := hs.perform_plain ha
    rw [hmoved]
    exact ⟨hs.of_le hq, rfl⟩
  · refine ⟨⟨hs.cursor, ?_⟩, rfl⟩
    exact List.forall_mem_cons.mpr ⟨hs.cursor, hs.entries⟩
  · cases h : s.checkpoints with
    | nil =>
        rw [perform_closes_nil ha h]
        exact ⟨hs, rfl⟩
    | cons entry outer =>
        obtain ⟨q, hq, hclosed⟩ := hs.perform_closes ha h
        rw [hclosed]
        have houter : ∀ e ∈ outer, e ≤ s.cursor.source.size := fun e he =>
          hs.entries e (h ▸ List.mem_cons_of_mem entry he)
        exact ⟨⟨hq, houter⟩, rfl⟩

/-- **Nothing changes on refusal.** -/
theorem Inside.perform_refused (hs : s.Inside) (h : (s.perform a).1.refuses = true) :
    (s.perform a).2 = s := by
  rcases a.plain_begin_or_closes with ha | rfl | ha
  · obtain ⟨q, -, hmoved, hstays⟩ := hs.perform_plain ha
    rw [hmoved, hstays h]
    rfl
  · cases h
  · cases hopen : s.checkpoints with
    | nil => rw [perform_closes_nil ha hopen]
    | cons entry outer =>
        obtain ⟨q, -, hclosed⟩ := hs.perform_closes ha hopen
        rw [hclosed] at h
        cases h

/-! ## Whole runs -/

theorem inside_ofString (text : String) : (ofString text).Inside :=
  ⟨Nat.zero_le _, fun _ h => absurd h List.not_mem_nil⟩

theorem Inside.after_run (hs : s.Inside) (script : List Action) :
    (s.run script).Inside ∧ (s.run script).cursor.source = s.cursor.source := by
  induction script generalizing s with
  | nil => exact ⟨hs, rfl⟩
  | cons a rest ih =>
      obtain ⟨hnext, hsource⟩ := hs.after_action a
      rw [run_cons, ← hsource]
      exact ih hnext

/-- **Actions in balance.** They do no more to a session than to move its cursor within the
input. -/
theorem Inside.run_balanced (hs : s.Inside) (h : Action.Balanced script) :
    ∃ q ≤ s.cursor.source.size, s.run script = s.movedTo q := by
  induction h generalizing s with
  | nil => exact ⟨s.position, hs.cursor, rfl⟩
  | plain leaves =>
      obtain ⟨q, hq, hmoved, -⟩ := hs.perform_plain leaves
      exact ⟨q, hq, hmoved⟩
  | append _ _ ih₁ ih₂ =>
      obtain ⟨q, hq, hfirst⟩ := ih₁ hs
      obtain ⟨m, hm, hsecond⟩ := ih₂ (hs.of_le hq)
      refine ⟨m, hm, ?_⟩
      rw [run_append, hfirst, hsecond]
      rfl
  | closed _ closes ih =>
      obtain ⟨q, hq, hinside⟩ := ih (hs.after_action .begin).1
      have hopen : (s.perform .begin).2.checkpoints = s.position :: s.checkpoints := rfl
      obtain ⟨m, hm, hclosed⟩ :=
        ((hs.after_action .begin).1.of_le hq).perform_closes closes hopen
      refine ⟨m, hm, ?_⟩
      rw [run_cons, run_snoc, hinside, hclosed]
      rfl

/-- **Beginnings.** The innermost checkpoint that is open at the end of a run was begun on the
way, and all that was begun since is closed again. It remembers where it was begun. -/
theorem Inside.exists_begin (hs : s.Inside) (hnone : s.checkpoints = []) : ∀ (n : Nat)
    {script : List Action} {entry : Nat} {outer : List Nat}, script.length ≤ n →
      (s.run script).checkpoints = entry :: outer →
      ∃ before inside, Action.Balanced inside ∧ script = before ++ .begin :: inside ∧
        entry = (s.run before).position ∧ outer = (s.run before).checkpoints := by
  intro n
  induction n with
  | zero =>
      intro script entry outer hn hopen
      rw [List.eq_nil_of_length_eq_zero (Nat.le_zero.mp hn)] at hopen
      exact absurd (hnone.symm.trans hopen) (List.cons_ne_nil entry outer).symm
  | succ n ih =>
      intro script entry outer hn hopen
      rcases List.eq_nil_or_concat script with rfl | ⟨pre, a, hscript⟩
      · exact absurd (hnone.symm.trans hopen) (List.cons_ne_nil entry outer).symm
      obtain rfl : script = pre ++ [a] := by rw [hscript, List.concat_eq_append]
      have hpre : pre.length ≤ n := by simpa using hn
      have hinside := (hs.after_run pre).1
      rw [run_snoc] at hopen
      rcases a.plain_begin_or_closes with ha | rfl | ha
      · obtain ⟨q, -, hmoved, -⟩ := hinside.perform_plain ha
        rw [hmoved] at hopen
        obtain ⟨before, inside, hbalanced, rfl, hremembered⟩ := ih hpre hopen
        exact ⟨before, inside ++ [a], hbalanced.append (.plain ha), by simp, hremembered⟩
      · obtain ⟨rfl, rfl⟩ := List.cons.inj hopen
        exact ⟨pre, [], .nil, rfl, rfl, rfl⟩
      · cases hpending : (s.run pre).checkpoints with
        | nil =>
            rw [perform_closes_nil ha hpending, hpending] at hopen
            cases hopen
        | cons last others =>
            -- the checkpoint closed here was begun after the one that is still open
            obtain ⟨m, -, hclosed⟩ := hinside.perform_closes ha hpending
            rw [hclosed] at hopen
            obtain ⟨before, inside, hbalanced, rfl, -, hothers⟩ := ih hpre hpending
            have hshorter : before.length ≤ n := by
              rw [List.length_append] at hpre
              omega
            obtain ⟨before', inside', hbalanced', rfl, hremembered⟩ :=
              ih hshorter (hothers ▸ hopen)
            exact ⟨before', inside' ++ .begin :: (inside ++ [a]),
              hbalanced'.append (.closed hbalanced ha), by simp, hremembered⟩

/-- To drop the checkpoints that are open is to roll them back, the innermost first. -/
theorem Inside.finish_eq (hs : s.Inside) :
    s.finish = (s.run (List.replicate s.checkpoints.length .rollback)).cursor ∧
      ∀ r ∈ s.performAll (List.replicate s.checkpoints.length .rollback), r.1 = .closed false := by
  obtain ⟨c, checkpoints⟩ := s
  show rollbackAll c checkpoints = _ ∧ _
  induction checkpoints generalizing c with
  | nil => exact ⟨rfl, fun _ h => absurd h List.not_mem_nil⟩
  | cons entry outer ih =>
      have hentry : entry ≤ c.source.size := hs.entries entry List.mem_cons_self
      have hopen : (Session.mk c (entry :: outer)).checkpoints = entry :: outer := rfl
      have hrollback := hs.perform_rollback hopen
      have hafter := (hs.after_action .rollback).1
      rw [hrollback] at hafter
      obtain ⟨hcursor, hanswers⟩ := ih { c with position := entry } hafter
      rw [rollbackAll, c.reset_of_le hentry, List.length_cons, List.replicate_succ, run_cons,
        performAll, hrollback]
      exact ⟨hcursor, List.forall_mem_cons.mpr ⟨rfl, hanswers⟩⟩

/-- What holds of a session whatever is done with it next. -/
structure Returns (s : Session) : Prop where
  inside : s.position ≤ s.cursor.source.size
  refused : ∀ a, (s.perform a).1.refuses = true → (s.perform a).2 = s
  rolledBack : ∀ script, Action.Balanced script →
    (s.run (.begin :: script)).perform .rollback = (.closed false, s)
  committed : ∀ script, Action.Balanced script →
    (s.run (.begin :: script)).perform .commit =
      (.closed true, s.movedTo (s.run (.begin :: script)).position)
  dropped : s.finish = (s.run (List.replicate s.checkpoints.length .rollback)).cursor ∧
    ∀ r ∈ s.performAll (List.replicate s.checkpoints.length .rollback), r.1 = .closed false

theorem Inside.returns (hs : s.Inside) : s.Returns where
  inside := hs.cursor
  refused _ h := hs.perform_refused h
  rolledBack script h := by
    have hbegun := (hs.after_action .begin).1
    obtain ⟨q, hq, hrun⟩ := hbegun.run_balanced h
    rw [run_cons, hrun]
    exact (hbegun.of_le hq).perform_rollback rfl
  committed script h := by
    obtain ⟨q, -, hrun⟩ := (hs.after_action .begin).1.run_balanced h
    rw [run_cons, hrun]
    exact perform_commit rfl
  dropped := hs.finish_eq

end Session

/-- **Checkpoints.** Let any actions be performed on a session that starts with a text. After
each of them the cursor is within the input, and where one is refused nothing has changed. A
checkpoint that was begun can be closed behind any actions in balance: to roll it back is no
fault, and the session is as it was when the checkpoint was begun; to commit it leaves the
cursor where it is. Every checkpoint that is open was begun so, and those still open at the
end are rolled back. -/
theorem checkpoints_return (text : String) (script : List Action) :
    (∀ r ∈ (Session.ofString text).performAll script, ∃ before a after,
        script = before ++ a :: after ∧
          r = ((Session.ofString text).run before).perform a ∧
          r.2.position ≤ (Source.ofString text).size) ∧
      ((Session.ofString text).run script).Returns ∧
      ∀ entry outer, ((Session.ofString text).run script).checkpoints = entry :: outer →
        ∃ before inside, Action.Balanced inside ∧ script = before ++ .begin :: inside ∧
          entry = ((Session.ofString text).run before).position ∧
          outer = ((Session.ofString text).run before).checkpoints := by
  have hstart := Session.inside_ofString text
  refine ⟨fun r hr => ?_, (hstart.after_run script).1.returns, fun entry outer hopen =>
    hstart.exists_begin rfl script.length (Nat.le_refl _) hopen⟩
  obtain ⟨before, a, after, hsplit, rfl⟩ := Session.mem_performAll_iff.mp hr
  refine ⟨before, a, after, hsplit, rfl, ?_⟩
  obtain ⟨hinside, hsource⟩ := hstart.after_run (before ++ [a])
  rw [Session.run_snoc] at hinside hsource
  have hcursor := hinside.cursor
  rw [hsource] at hcursor
  exact hcursor

/-- Behind the first token two more are read, and an inner checkpoint that goes back to the start
of the text is committed. The outer one still returns to where it was begun. -/
theorem checkpoints_return_abcd :
    Action.Balanced [.nextMany 2, .begin, .reset 0, .commit] ∧
      ((Session.ofString "abcd").run
        [.next, .begin, .nextMany 2, .begin, .reset 0, .commit]).position = 0 ∧
      ((Session.ofString "abcd").run
        [.next, .begin, .nextMany 2, .begin, .reset 0, .commit]).checkpoints = [1] ∧
      ((Session.ofString "abcd").run
          [.next, .begin, .nextMany 2, .begin, .reset 0, .commit]).perform .rollback =
        (.closed false, (Session.ofString "abcd").run [.next]) ∧
      ∃ before inside, Action.Balanced inside ∧
        [.next, .begin, .nextMany 2, .begin, .reset 0, .commit] = before ++ .begin :: inside ∧
        1 = ((Session.ofString "abcd").run before).position ∧
        [] = ((Session.ofString "abcd").run before).checkpoints := by
  have hreset : Action.Balanced [.reset 0] := .plain ⟨nofun, nofun⟩
  have hinner : Action.Balanced [.begin, .reset 0, .commit] := .closed hreset (Or.inl rfl)
  have hbalanced : Action.Balanced [.nextMany 2, .begin, .reset 0, .commit] :=
    @Action.Balanced.append [.nextMany 2] _ (.plain ⟨nofun, nofun⟩) hinner
  have hopen : ((Session.ofString "abcd").run
      [.next, .begin, .nextMany 2, .begin, .reset 0, .commit]).checkpoints = [1] := by decide
  exact ⟨hbalanced, by decide, hopen,
    (checkpoints_return "abcd" [.next]).2.1.rolledBack _ hbalanced,
    (checkpoints_return "abcd" _).2.2 1 [] hopen⟩

end ConcreteSyntax
