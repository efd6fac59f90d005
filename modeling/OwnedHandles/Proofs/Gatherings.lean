import Mathlib.Data.List.Flatten
import OwnedHandles.Proofs.Encoding
import OwnedHandles.Proofs.Redirection

namespace OwnedHandles

namespace Gathering

def reads (fd : Fd) (results : List (Except Errno Bytes)) : List Answered :=
  results.map fun r => ⟨.read fd Limits.readChunk, r⟩

def received (results : List (Except Errno Bytes)) : Bytes :=
  (results.filterMap Except.toOption).flatten

inductive GoesOn : Except Errno Bytes → Prop
  | chunk {bs} : bs ≠ [] → GoesOn (.ok bs)
  | interruption : GoesOn (.error .EINTR)

inductive Ends (name : String) (content : Bytes) :
    Except Errno Bytes → Except Failure Bytes → Prop
  | stream : Ends name content (.ok []) (.ok content)
  | failure {e} : e ≠ .EINTR → Ends name content (.error e) (.error (.readFailed name e))

theorem goesOn_or_ends (name : String) (content : Bytes) (x : Except Errno Bytes) :
    GoesOn x ∨ ∃ r, Ends name content x r := by
  cases x with
  | ok bs =>
    cases bs with
    | nil => exact .inr ⟨_, .stream⟩
    | cons b bs => exact .inl (.chunk (List.cons_ne_nil b bs))
  | error e =>
    by_cases he : e = .EINTR
    · exact .inl (he ▸ .interruption)
    · exact .inr ⟨_, .failure he⟩

theorem received_cons (x : Except Errno Bytes) (xs : List (Except Errno Bytes)) :
    received (x :: xs) = x.toOption.toList.flatten ++ received xs := by
  cases x with
  | ok bs => simp [received, Except.toOption]
  | error e => rfl

theorem flatten_reverse_append (content : List Bytes) (x : Except Errno Bytes)
    (xs : List (Except Errno Bytes)) :
    (x.toOption.toList ++ content).reverse.flatten ++ received xs =
      content.reverse.flatten ++ received (x :: xs) := by
  rw [received_cons]
  cases x <;> simp [Except.toOption]

end Gathering

open Gathering (reads received GoesOn Ends)

namespace Descriptor

variable {fd : Fd} {name : String} {rounds : Nat} {content : List Bytes} {x : Except Errno Bytes}
  {r : Except Failure Bytes} {as : List Answered}

def afterRead (fd : Fd) (name : String) (rounds : Nat) (content : List Bytes) :
    Except Errno Bytes → Program (Except Failure Bytes)
  | .ok [] => .done (.ok content.reverse.flatten)
  | .ok (b :: bs) => ((owning fd name).readOn rounds ((b :: bs) :: content)).run
  | .error e =>
    if e = .EINTR then ((owning fd name).readOn rounds content).run
    else .done (.error (.readFailed name e))

theorem readOn_run : ((owning fd name).readOn (rounds + 1) content).run =
    .call (.read fd Limits.readChunk) (afterRead fd name rounds content) := by
  refine congrArg (Program.call (.read fd Limits.readChunk)) (funext fun x => ?_)
  cases x with
  | ok bs => cases bs <;> rfl
  | error e =>
    by_cases he : e = .EINTR
    · subst he
      rfl
    · simp only [afterRead, he, if_false]
      cases e <;> first | rfl | exact absurd rfl he

theorem afterRead_goOn (hx : GoesOn x) : afterRead fd name rounds content x =
    ((owning fd name).readOn rounds (x.toOption.toList ++ content)).run := by
  cases hx with
  | @chunk bs hbs =>
    obtain ⟨b, bs, rfl⟩ := List.exists_cons_of_ne_nil hbs
    rfl
  | interruption => rfl

theorem afterRead_ends (hx : Ends name content.reverse.flatten x r) :
    afterRead fd name rounds content x = .done r := by
  cases hx with
  | stream => rfl
  | failure he => simp only [afterRead, he, if_false]

/-- Reads that go on and one that does not, within the rounds, are the runs that return. -/
theorem follow_readOn : ((owning fd name).readOn rounds content).run.follow as = some (.done r) ↔
    ∃ goings last, as = reads fd (goings ++ [last]) ∧ goings.length < rounds ∧
      (∀ x ∈ goings, GoesOn x) ∧ Ends name (content.reverse.flatten ++ received goings) last r := by
  -- The chunks so far are part of the statement, so that each round may put its own to them.
  induction rounds generalizing content as with
  | zero =>
    constructor
    · intro h
      cases (Program.follow_unfinished.mp h).2
    · rintro ⟨_, _, -, hlt, -⟩
      exact absurd hlt (Nat.not_lt_zero _)
  | succ rounds ih =>
    rw [readOn_run]
    constructor
    · intro h
      obtain ⟨-, ⟨⟩⟩ | ⟨(x : Except Errno Bytes), rest, rfl, hnext⟩ := Program.follow_call.mp h
      obtain hx | ⟨r', hx⟩ := Gathering.goesOn_or_ends name content.reverse.flatten x
      · rw [afterRead_goOn hx] at hnext
        obtain ⟨goings, last, rfl, hlt, hgoings, hends⟩ := ih.mp hnext
        rw [Gathering.flatten_reverse_append] at hends
        exact ⟨x :: goings, last, rfl, Nat.succ_lt_succ hlt, List.forall_mem_cons.mpr ⟨hx, hgoings⟩,
          hends⟩
      · rw [afterRead_ends hx] at hnext
        obtain ⟨rfl, heq⟩ := Program.follow_done.mp hnext
        cases heq
        exact ⟨[], x, rfl, Nat.succ_pos _, List.forall_mem_nil _, by simpa [received] using hx⟩
    · rintro ⟨goings, last, rfl, hlt, hgoings, hends⟩
      cases goings with
      | nil =>
        have hlast : Ends name content.reverse.flatten last r := by simpa [received] using hends
        refine Program.follow_call_cons.trans ?_
        rw [afterRead_ends hlast]
        rfl
      | cons x goings =>
        obtain ⟨hx, hgoings⟩ := List.forall_mem_cons.mp hgoings
        refine Program.follow_call_cons.trans ?_
        rw [afterRead_goOn hx]
        rw [← Gathering.flatten_reverse_append] at hends
        exact ih.mpr ⟨goings, last, rfl, Nat.lt_of_succ_lt_succ hlt, hgoings, hends⟩

theorem follow_readToEnd : ((owning fd name).readToEnd rounds).run.follow as = some (.done r) ↔
    ∃ goings last, as = reads fd (goings ++ [last]) ∧ goings.length < rounds ∧
      (∀ x ∈ goings, GoesOn x) ∧ Ends name (received goings) last r :=
  follow_readOn

def readInto (d : Descriptor) (buffer : Bytes) : Action (Nat × Bytes) := do
  let bs ← d.read Limits.readChunk
  return (bs.length, overwritten buffer bs)

/-- Reads on to the end of the stream, each time into the buffer that the time before has left. -/
def readOnInto (d : Descriptor) : Nat → Bytes → Bytes → Action Bytes
  | 0, _, _ => Action.unfinished
  | rounds + 1, buffer, content => do
    match ← ExceptT.lift (d.readInto buffer).attempt with
    | .ok (0, _) => return content
    | .ok (n + 1, buffer) => d.readOnInto rounds buffer (content ++ buffer.take (n + 1))
    | .error (.readFailed _ .EINTR) => d.readOnInto rounds buffer content
    | .error f => throw f

/-- What a longer chunk has left in the buffer does not get into the whole. -/
theorem readOnInto_eq (d : Descriptor) (rounds : Nat) (buffer : Bytes) (content : List Bytes) :
    d.readOnInto rounds buffer content.reverse.flatten = d.readOn rounds content := by
  obtain ⟨fd, name⟩ := d
  induction rounds generalizing buffer content with
  | zero => rfl
  | succ rounds ih =>
    cases fd with
    | none => rfl
    | some fd =>
      refine ExceptT.ext (congrArg (Program.call (.read fd Limits.readChunk)) (funext fun x => ?_))
      cases x with
      | ok bs =>
        cases bs with
        | nil => rfl
        | cons b bs =>
          have hnew : (overwritten buffer (b :: bs)).take (bs.length + 1) = b :: bs :=
            take_overwritten buffer (b :: bs)
          have hcontent : content.reverse.flatten ++ (b :: bs) =
              ((b :: bs) :: content).reverse.flatten := by simp
          change ExceptT.run (readOnInto _ rounds (overwritten buffer (b :: bs))
            (content.reverse.flatten ++ (overwritten buffer (b :: bs)).take (bs.length + 1))) = _
          rw [hnew, hcontent, ih]
          rfl
      | error e =>
        by_cases he : e = .EINTR
        · subst he
          exact congrArg ExceptT.run (ih buffer content)
        · cases e <;> first | rfl | exact absurd rfl he

/-- The runs that return are those of reads that get something or are interrupted and of a last one,
at the end of the stream or with a failure. At the end of the stream the whole is what the reads
got. How that was cut into chunks and where reads were interrupted makes no difference to it, so
that a text is the same when a chunk ends within a character. The buffer makes none either, whatever
is in it from before. -/
theorem readToEnd_gathers (fd : Fd) (name : String) :
    (∀ rounds as r, ((owning fd name).readToEnd rounds).run.follow as = some (.done r) ↔
      ∃ goings last, as = reads fd (goings ++ [last]) ∧ goings.length < rounds ∧
        (∀ x ∈ goings, GoesOn x) ∧ Ends name (received goings) last r) ∧
    (∀ goings goings' last, (∀ x ∈ goings, GoesOn x) → (∀ x ∈ goings', GoesOn x) → ¬GoesOn last →
      received goings = received goings' →
      ∀ rounds > goings.length, ∀ rounds' > goings'.length, ∃ r,
        ((owning fd name).readToEnd rounds).run.follow (reads fd (goings ++ [last])) =
          some (.done r) ∧
        ((owning fd name).readToEnd rounds').run.follow (reads fd (goings' ++ [last])) =
          some (.done r)) ∧
    (∀ s goings, (∀ x ∈ goings, GoesOn x) → received goings = Bytes.ofString s →
      ∀ rounds > goings.length, ∃ content,
        ((owning fd name).readToEnd rounds).run.follow (reads fd (goings ++ [.ok []])) =
          some (.done (.ok content)) ∧ Text.decodeLossy content = s) ∧
    ∀ rounds buffer, (owning fd name).readOnInto rounds buffer [] =
      (owning fd name).readToEnd rounds := by
  refine ⟨fun rounds as r => follow_readToEnd, ?_, ?_, fun rounds buffer =>
    readOnInto_eq _ rounds buffer []⟩
  · intro goings goings' last hgoings hgoings' hlast hreceived rounds hrounds rounds' hrounds'
    obtain ⟨r, hends⟩ :=
      (Gathering.goesOn_or_ends name (received goings) last).resolve_left hlast
    exact ⟨r, follow_readToEnd.mpr ⟨goings, last, rfl, hrounds, hgoings, hends⟩,
      follow_readToEnd.mpr ⟨goings', last, rfl, hrounds', hgoings', hreceived ▸ hends⟩⟩
  · intro s goings hgoings hreceived rounds hrounds
    refine ⟨received goings,
      follow_readToEnd.mpr ⟨goings, .ok [], rfl, hrounds, hgoings, .stream⟩, ?_⟩
    rw [hreceived, Text.decodeLossy_ofString]

/-- The end of the first chunk stays in the buffer behind the second one. -/
example : (((owning 3 "p").readOnInto 3 [0, 0, 0, 0] []).run.follow
    (reads 3 [.ok [97, 195, 98], .ok [169], .ok []])).bind Program.result? =
      some (.ok [97, 195, 98, 169]) := by
  rfl

end Descriptor

end OwnedHandles
