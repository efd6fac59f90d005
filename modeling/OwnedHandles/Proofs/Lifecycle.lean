import Mathlib.Data.List.Basic
import OwnedHandles.Descriptor
import OwnedHandles.Proofs.Runs

namespace OwnedHandles

def Failure.OfClose : Failure → Prop
  | .closeFailed .. => True
  | _ => False

namespace Happening

def closing? : Happening → Option (Fd × Except Errno Unit)
  | .called ⟨.close fd, a⟩ => some (fd, a)
  | _ => none

def warning? : Happening → Option Event
  | .logged e => if e.level.rank ≤ Level.warn.rank then some e else none
  | _ => none

structure Neutral (x : Happening) : Prop where
  closing : x.closing? = none
  warning : x.warning? = none

end Happening

namespace Descriptor

inductive Operation
  | read (count : Nat)
  | write (data : Bytes)
  | writeAll (rounds : Nat) (data : Bytes)
  | readToEnd (rounds : Nat)
  | closeOnExec
  | close
  | release
  | closeSafe
  | onDrop

namespace Operation

def releases : Operation → Bool
  | close | release | closeSafe | onDrop => true
  | _ => false

def hasRounds : Operation → Bool
  | writeAll 0 _ | readToEnd 0 => false
  | _ => true

def loops : Operation → Bool
  | writeAll .. | readToEnd _ => true
  | _ => false

def ofClose (name : String) : Operation → Except Errno Unit → Except Failure Unit
  | close, .error e | release, .error e => .error (.closeFailed name e)
  | _, _ => .ok ()

def ofClosed (name : String) : Operation → Except Failure Unit
  | read _ | readToEnd _ => .error (.readFailed name .EBADF)
  | write _ => .error (.writeFailed name .EBADF)
  | writeAll _ data => if data = [] then .ok () else .error (.writeFailed name .EBADF)
  | closeOnExec => .error (.callFailed "fcntl" ("on closed file " ++ name) .EBADF)
  | close | release | closeSafe | onDrop => .ok ()

end Operation

def keeping {α : Type} (d : Descriptor) (p : Action α) :
    Program (Except Failure Unit × Descriptor) :=
  p.run.bind fun r => .done (r.map fun _ => (), d)

def silencing (p : Program Descriptor) : Program (Except Failure Unit × Descriptor) :=
  p.bind fun d => .done (.ok (), d)

def perform (d : Descriptor) : Operation → Program (Except Failure Unit × Descriptor)
  | .read count => d.keeping (d.read count)
  | .write data => d.keeping (d.write data)
  | .writeAll rounds data => d.keeping (d.writeAll rounds data)
  | .readToEnd rounds => d.keeping (d.readToEnd rounds)
  | .closeOnExec => d.keeping d.closeOnExec
  | .close => d.close
  | .release => d.release
  | .closeSafe => silencing d.closeSafe
  | .onDrop => silencing d.drop

section Neutral

def Neutral {α : Type} (p : Action α) : Prop :=
  p.run.Within Happening.Neutral fun r => ∀ f, r = .error f → ¬f.OfClose

theorem Neutral.ok {α : Type} (a : α) : Neutral (pure a) := fun _ h => by cases h

theorem Neutral.failed {α : Type} {f : Failure} (hf : ¬f.OfClose) :
    Neutral (throw f : Action α) := by
  rintro _ ⟨⟩
  exact hf

theorem Neutral.attempt_bind {α β : Type} {p : Action α} {f : Except Failure α → Action β}
    (hp : Neutral p) (hf : ∀ r, (∀ f, r = .error f → ¬f.OfClose) → Neutral (f r)) :
    Neutral (ExceptT.lift p.attempt >>= f) := by
  unfold Neutral
  rw [Action.run_bind, Action.run_lift, Program.bind_assoc]
  exact hp.bind hf

theorem neutral_orFail {α : Type} {asFailure : Errno → Failure} (h : ∀ e, ¬(asFailure e).OfClose)
    (r : Except Errno α) : Neutral (Action.orFail asFailure r) := by
  cases r with
  | ok a => exact Neutral.ok a
  | error e => exact Neutral.failed (h e)

variable (d : Descriptor)

theorem read_neutral (count : Nat) : Neutral (d.read count) := by
  unfold read
  cases d.fd with
  | none => exact Neutral.failed id
  | some fd => exact fun a => ⟨⟨rfl, rfl⟩, neutral_orFail (fun _ => id) a⟩

theorem write_neutral (data : Bytes) : Neutral (d.write data) := by
  unfold write
  cases d.fd with
  | none => exact Neutral.failed id
  | some fd => exact fun a => ⟨⟨rfl, rfl⟩, neutral_orFail (fun _ => id) a⟩

theorem writeAll_neutral (rounds : Nat) (data : Bytes) : Neutral (d.writeAll rounds data) := by
  induction rounds generalizing data with
  | zero =>
    cases data with
    | nil => exact Neutral.ok ()
    | cons b bs => trivial
  | succ rounds ih =>
    cases data with
    | nil => exact Neutral.ok ()
    | cons b bs =>
      refine (d.write_neutral _).attempt_bind fun r hr => ?_
      split
      · exact Neutral.failed id
      · exact ih _
      · exact ih _
      · exact Neutral.failed (hr _ rfl)

theorem readOn_neutral (rounds : Nat) (content : List Bytes) :
    Neutral (d.readOn rounds content) := by
  induction rounds generalizing content with
  | zero => trivial
  | succ rounds ih =>
    refine (d.read_neutral _).attempt_bind fun r hr => ?_
    split
    · exact Neutral.ok _
    · exact ih _
    · exact ih _
    · exact Neutral.failed (hr _ rfl)

theorem closeOnExec_neutral : Neutral d.closeOnExec := by
  unfold closeOnExec
  cases d.fd with
  | none => exact Neutral.failed id
  | some fd =>
    refine fun a => ⟨⟨rfl, rfl⟩, ?_⟩
    cases a with
    | error e => exact Neutral.failed id
    | ok on => exact fun a => ⟨⟨rfl, rfl⟩, neutral_orFail (fun _ => id) a⟩

end Neutral

theorem perform_neutral (d : Descriptor) {o : Operation} (ho : o.releases = false) :
    (d.perform o).Within Happening.Neutral fun r =>
      r.2 = d ∧ ∀ f, r.1 = .error f → ¬f.OfClose := by
  have hkeeping {α : Type} {p : Action α} (hp : Neutral p) :
      (d.keeping p).Within Happening.Neutral fun r =>
        r.2 = d ∧ ∀ f, r.1 = .error f → ¬f.OfClose := by
    refine hp.bind fun r hr => ⟨rfl, ?_⟩
    cases r with
    | ok a => exact fun _ h => by cases h
    | error f =>
      rintro _ ⟨⟩
      exact hr f rfl
  cases o with
  | read count => exact hkeeping (d.read_neutral count)
  | write data => exact hkeeping (d.write_neutral data)
  | writeAll rounds data => exact hkeeping (d.writeAll_neutral rounds data)
  | readToEnd rounds => exact hkeeping (d.readOn_neutral rounds [])
  | closeOnExec => exact hkeeping d.closeOnExec_neutral
  | close | release | closeSafe | onDrop => cases ho

theorem perform_closed (name : String) {o : Operation} (ho : o.hasRounds = true) :
    perform ⟨none, name⟩ o = .done (o.ofClosed name, ⟨none, name⟩) := by
  cases o with
  | writeAll rounds data =>
    cases rounds with
    | zero => cases ho
    | succ rounds => cases data <;> rfl
  | readToEnd rounds =>
    cases rounds with
    | zero => cases ho
    | succ rounds => rfl
  | _ => rfl

theorem perform_finishes (d : Descriptor) {o : Operation} (ho : o.loops = false) :
    (d.perform o).Finishes := by
  obtain ⟨fd, name⟩ := d
  cases fd with
  | none =>
    rw [perform_closed name]
    · trivial
    · cases o <;> first | rfl | cases ho
  | some fd =>
    cases o with
    | writeAll | readToEnd => cases ho
    | closeOnExec =>
      intro a
      cases a with
      | error e => trivial
      | ok on => intro a; cases a <;> trivial
    | _ => intro a; cases a <;> trivial

inductive Report
  | returned (f : Failure)
  | warned (e : Event)
  deriving DecidableEq

structure Episode where
  operation : Operation
  happened : List Happening
  result : Except Failure Unit

namespace Episode

def closings (e : Episode) : List (Fd × Except Errno Unit) :=
  e.happened.filterMap Happening.closing?

def reports (e : Episode) : List Report :=
  (e.happened.filterMap Happening.warning?).map .warned ++
    match e.result with
    | .error (.closeFailed name errno) => [.returned (.closeFailed name errno)]
    | _ => []

end Episode

inductive Lives : Descriptor → List Episode → Descriptor → Prop
  | nil (d : Descriptor) : Lives d [] d
  | cons {d d' d'' : Descriptor} {e : Episode} {es : List Episode} :
      (d.perform e.operation).Does e.happened (e.result, d') → Lives d' es d'' →
      Lives d (e :: es) d''

def Operation.report (name : String) : Operation → Except Errno Unit → List Report
  | close, .error e | release, .error e => [.returned (.closeFailed name e)]
  | closeSafe, .error e | onDrop, .error e =>
    [.warned (closeWarning ⟨none, name⟩ (.closeFailed name e))]
  | _, _ => []

structure Episode.Closes (e : Episode) (fd : Fd) (name : String) (a : Except Errno Unit) :
    Prop where
  closings : e.closings = [(fd, a)]
  reports : e.reports = e.operation.report name a
  result : e.result = e.operation.ofClose name a

section Steps

variable {fd : Fd} {name : String} {h : List Happening} {r : Except Failure Unit}
  {d d' : Descriptor}

theorem owning_close_does (hdoes : (owning fd name).close.Does h (r, d)) :
    d = ⟨none, name⟩ ∧ ∃ a, Episode.Closes ⟨.close, h, r⟩ fd name a := by
  obtain ⟨a, rest, rfl, hrest⟩ := Program.does_call.mp hdoes
  cases a with
  | ok _ =>
    obtain ⟨_, rfl, hdone⟩ := Program.does_note.mp hrest
    obtain ⟨rfl, hvalue⟩ := Program.does_done.mp hdone
    cases hvalue
    exact ⟨rfl, .ok (), rfl, rfl, rfl⟩
  | error e =>
    obtain ⟨rfl, hvalue⟩ := Program.does_done.mp hrest
    cases hvalue
    exact ⟨rfl, .error e, rfl, rfl, rfl⟩

theorem owning_closeSafe_does (hdoes : (silencing (owning fd name).closeSafe).Does h (r, d)) :
    d = ⟨none, name⟩ ∧ ∃ a, Episode.Closes ⟨.closeSafe, h, r⟩ fd name a := by
  obtain ⟨a, rest, rfl, hrest⟩ := Program.does_call.mp hdoes
  cases a with
  | ok _ =>
    obtain ⟨_, rfl, hdone⟩ := Program.does_note.mp hrest
    obtain ⟨rfl, hvalue⟩ := Program.does_done.mp hdone
    cases hvalue
    exact ⟨rfl, .ok (), rfl, rfl, rfl⟩
  | error e =>
    obtain ⟨_, rfl, hdone⟩ := Program.does_note.mp hrest
    obtain ⟨rfl, hvalue⟩ := Program.does_done.mp hdone
    cases hvalue
    exact ⟨rfl, .error e, rfl, rfl, rfl⟩

theorem owning_perform_does {o : Operation}
    (hdoes : ((owning fd name).perform o).Does h (r, d)) (ho : o.releases = true) :
    d = ⟨none, name⟩ ∧ ∃ a, Episode.Closes ⟨o, h, r⟩ fd name a := by
  cases o with
  | close => exact owning_close_does hdoes
  | release =>
    obtain ⟨hd, a, hcloses⟩ := owning_close_does hdoes
    exact ⟨hd, a, hcloses.closings, hcloses.reports.trans (by cases a <;> rfl),
      hcloses.result.trans (by cases a <;> rfl)⟩
  | closeSafe => exact owning_closeSafe_does hdoes
  | onDrop =>
    obtain ⟨hd, a, hcloses⟩ := owning_closeSafe_does hdoes
    exact ⟨hd, a, hcloses.closings, hcloses.reports.trans (by cases a <;> rfl),
      hcloses.result.trans (by cases a <;> rfl)⟩
  | read | write | writeAll | readToEnd | closeOnExec => cases ho

theorem perform_neutral_does {o : Operation} (hdoes : (d.perform o).Does h (r, d'))
    (ho : o.releases = false) :
    d' = d ∧ Episode.closings ⟨o, h, r⟩ = [] ∧ Episode.reports ⟨o, h, r⟩ = [] := by
  have hneutral := (d.perform_neutral ho).happenings hdoes
  obtain ⟨hd, hr⟩ := (d.perform_neutral ho).value hdoes
  refine ⟨hd, List.filterMap_eq_nil_iff.mpr fun x hx => (hneutral x hx).closing, ?_⟩
  have hwarnings : h.filterMap Happening.warning? = [] :=
    List.filterMap_eq_nil_iff.mpr fun x hx => (hneutral x hx).warning
  unfold Episode.reports
  rw [hwarnings]
  split
  case h_1 heq => exact (hr _ heq trivial).elim
  case h_2 => rfl

theorem closed_perform_does {o : Operation}
    (hdoes : (perform ⟨none, name⟩ o).Does h (r, d)) :
    d = ⟨none, name⟩ ∧ h = [] ∧ r = o.ofClosed name := by
  by_cases ho : o.hasRounds = true
  · rw [perform_closed name ho] at hdoes
    obtain ⟨rfl, hvalue⟩ := Program.does_done.mp hdoes
    cases hvalue
    exact ⟨rfl, rfl, rfl⟩
  · cases o with
    | writeAll rounds data =>
      cases rounds with
      | zero =>
        cases data with
        | nil =>
          obtain ⟨rfl, hvalue⟩ := Program.does_done.mp hdoes
          cases hvalue
          exact ⟨rfl, rfl, rfl⟩
        | cons b bs => cases hdoes
      | succ rounds => exact (ho rfl).elim
    | readToEnd rounds =>
      cases rounds with
      | zero => cases hdoes
      | succ rounds => exact (ho rfl).elim
    | _ => exact (ho rfl).elim

end Steps

/-- The handle has been given up in one of the operations, by one close. Its failure was told once,
and the operations after it were answered without the system. -/
structure ReleasedOnce (fd : Fd) (name : String) (es before : List Episode) (last : Episode)
    (after : List Episode) (a : Except Errno Unit) : Prop where
  order : es = before ++ last :: after
  unreleased : ∀ e ∈ before, e.operation.releases = false
  releases : last.operation.releases = true
  closings : es.flatMap Episode.closings = [(fd, a)]
  reports : es.flatMap Episode.reports = last.operation.report name a
  result : last.result = last.operation.ofClose name a
  rest : ∀ e ∈ after, e.happened = [] ∧ e.result = e.operation.ofClosed name

theorem Episode.silent {name : String} {e : Episode} (hhappened : e.happened = [])
    (hresult : e.result = e.operation.ofClosed name) : e.closings = [] ∧ e.reports = [] := by
  unfold closings reports
  rw [hhappened, hresult]
  refine ⟨rfl, ?_⟩
  cases e.operation with
  | writeAll rounds data => cases data <;> rfl
  | _ => rfl

namespace Lives

variable {fd : Fd} {name : String} {d d' : Descriptor} {e : Episode} {es : List Episode}

theorem unreleased (h : d.Lives es d') (hes : ∀ e ∈ es, e.operation.releases = false) :
    d' = d ∧ es.flatMap Episode.closings = [] ∧ es.flatMap Episode.reports = [] := by
  induction h with
  | nil d => exact ⟨rfl, rfl, rfl⟩
  | cons hdoes _ ih =>
    obtain ⟨he, hes⟩ := List.forall_mem_cons.mp hes
    obtain ⟨rfl, hclosings, hreports⟩ := perform_neutral_does hdoes he
    obtain ⟨rfl, hrest⟩ := ih hes
    exact ⟨rfl, by rw [List.flatMap_cons, hrest.1]; exact congrArg (· ++ []) hclosings,
      by rw [List.flatMap_cons, hrest.2]; exact congrArg (· ++ []) hreports⟩

theorem closed (h : Lives ⟨none, name⟩ es d) :
    d = ⟨none, name⟩ ∧ ∀ e ∈ es, e.happened = [] ∧ e.result = e.operation.ofClosed name := by
  -- the induction is over lives that start without a handle
  generalize hclosed : (⟨none, name⟩ : Descriptor) = start at h
  induction h with
  | nil d => exact ⟨rfl, List.forall_mem_nil _⟩
  | cons hdoes _ ih =>
    subst hclosed
    obtain ⟨rfl, hhappened⟩ := closed_perform_does hdoes
    exact ⟨(ih rfl).1, List.forall_mem_cons.mpr ⟨hhappened, (ih rfl).2⟩⟩

theorem released (h : (owning fd name).Lives es d)
    (hes : ∃ e ∈ es, e.operation.releases = true) :
    d = ⟨none, name⟩ ∧ ∃ before last after a, ReleasedOnce fd name es before last after a := by
  generalize howning : owning fd name = start at h
  induction h with
  | nil d => exact absurd hes (by simp)
  | @cons d₁ d₂ d₃ e es hdoes hlives ih =>
    subst howning
    rw [List.exists_mem_cons_iff] at hes
    cases he : e.operation.releases with
    | true =>
      obtain ⟨rfl, a, hcloses⟩ := owning_perform_does hdoes he
      obtain ⟨rfl, hrest⟩ := hlives.closed
      have hsilent (e) (hmem : e ∈ es) := Episode.silent (hrest e hmem).1 (hrest e hmem).2
      refine ⟨rfl, [], e, es, a, rfl, List.forall_mem_nil _, he, ?_, ?_, hcloses.result, hrest⟩
      · rw [List.flatMap_cons, hcloses.closings,
          List.flatMap_eq_nil_iff.mpr fun e hmem => (hsilent e hmem).1]
        rfl
      · rw [List.flatMap_cons, hcloses.reports,
          List.flatMap_eq_nil_iff.mpr fun e hmem => (hsilent e hmem).2, List.append_nil]
    | false =>
      obtain ⟨rfl, hclosings, hreports⟩ := perform_neutral_does hdoes he
      have hlater := hes.resolve_left (by simp [he])
      obtain ⟨hd, before, last, after, a, hreleased⟩ := ih hlater rfl
      refine ⟨hd, e :: before, last, after, a, congrArg (e :: ·) hreleased.order,
        List.forall_mem_cons.mpr ⟨he, hreleased.unreleased⟩, hreleased.releases, ?_, ?_,
        hreleased.result, hreleased.rest⟩
      · rw [List.flatMap_cons, hreleased.closings]
        exact congrArg (· ++ [(fd, a)]) hclosings
      · rw [List.flatMap_cons, hreleased.reports]
        exact congrArg (· ++ _) hreports

end Lives

theorem setExactMode_does {d : Descriptor} {fd : Fd} {perm : Mode} {h : List Happening}
    (hdoes : (d.setExactMode fd perm).run.Does h (.ok ())) :
    h = [.called ⟨.changeMode fd perm, .ok ()⟩] := by
  obtain ⟨a, _, rfl, hanswered⟩ := Program.does_call.mp hdoes
  cases a with
  | ok _ =>
    obtain ⟨rfl, _⟩ := Program.does_done.mp hanswered
    rfl
  | error e =>
    change Program.Does (ExceptT.run (ExceptT.lift d.drop >>= fun _ => throw _)) _ _ at hanswered
    rw [Action.run_bind] at hanswered
    obtain ⟨r, _, _, _, _, hthrown⟩ := Program.does_bind.mp hanswered
    cases r <;> cases (Program.does_done.mp hthrown).2

theorem openFile_does {file : File} {flags : OpenFlags} {perm : Mode} {h : List Happening}
    {d : Descriptor} (hdoes : (openFile file flags perm).run.Does h (.ok d)) :
    ∃ fd, .called ⟨.openFile file.path flags perm, .ok fd⟩ ∈ h ∧ d = owning fd file.name ∧
      h.filterMap Happening.closing? = [] := by
  obtain ⟨kind, _, rfl, hprobed⟩ := Program.does_call.mp hdoes
  obtain ⟨a, _, rfl, hanswered⟩ := Program.does_call.mp hprobed
  cases a with
  | error e =>
    obtain ⟨_, rfl, hdone⟩ := Program.does_note.mp hanswered
    cases (Program.does_done.mp hdone).2
  | ok fd =>
    obtain ⟨rest, rfl, hopened⟩ := Program.does_note.mp hanswered
    refine ⟨fd, List.mem_cons_of_mem _ List.mem_cons_self, ?_⟩
    change Program.Does (ExceptT.run (if _ then _ else _)) rest _ at hopened
    split at hopened
    · rw [Action.run_bind] at hopened
      obtain ⟨r, first, last, rfl, hset, hnoted⟩ := Program.does_bind.mp hopened
      cases r with
      | error f => cases (Program.does_done.mp hnoted).2
      | ok _ =>
        obtain ⟨_, rfl, hdone⟩ := Program.does_note.mp hnoted
        obtain ⟨rfl, hvalue⟩ := Program.does_done.mp hdone
        cases hvalue
        obtain rfl := setExactMode_does hset
        exact ⟨rfl, rfl⟩
    · obtain ⟨_, rfl, hdone⟩ := Program.does_note.mp hopened
      obtain ⟨rfl, hvalue⟩ := Program.does_done.mp hdone
      cases hvalue
      exact ⟨rfl, rfl⟩

/-- The handle of a descriptor is closed once, by the first operation that lets go of it, be that a
close, a release or the end of the descriptor. -/
theorem lives_close_once (fd : Fd) (name : String) :
    (∀ es d, (owning fd name).Lives es d → (∀ e ∈ es, e.operation.releases = false) →
      d = owning fd name ∧ es.flatMap Episode.closings = [] ∧ es.flatMap Episode.reports = []) ∧
    (∀ es d, (owning fd name).Lives es d → (∃ e ∈ es, e.operation.releases = true) →
      (d.fd = none ∧ d.isOpen = false ∧ d.isActive = false) ∧
        ∃ before last after a, ReleasedOnce fd name es before last after a) ∧
    (∀ (d : Descriptor) o, o.releases = false →
      (d.perform o).Within Happening.Neutral fun _ => True) ∧
    (∀ (d : Descriptor) o, o.loops = false → (d.perform o).Finishes) ∧
    (∀ o, o.hasRounds = true → perform ⟨none, name⟩ o = .done (o.ofClosed name, ⟨none, name⟩)) ∧
    ∀ file flags perm h d, (openFile file flags perm).run.Does h (.ok d) →
      ∃ fd, .called ⟨.openFile file.path flags perm, .ok fd⟩ ∈ h ∧ d = owning fd file.name ∧
        h.filterMap Happening.closing? = [] := by
  refine ⟨fun es d h hes => h.unreleased hes, fun es d h hes => ?_, fun d o ho => ?_,
    fun d o ho => d.perform_finishes ho, fun o ho => perform_closed name ho,
    fun file flags perm h d hdoes => openFile_does hdoes⟩
  · obtain ⟨rfl, hreleased⟩ := h.released hes
    exact ⟨⟨rfl, rfl, rfl⟩, hreleased⟩
  · exact (d.perform_neutral ho).weaken fun _ _ => trivial

/-- Written to, closed with an error, written to again and dropped. -/
theorem lives_close_once_failing : ∃ es d, (owning 3 "f").Lives es d ∧
    (∃ e ∈ es, e.operation.releases = true) ∧ d.fd = none ∧
    es.flatMap Episode.closings = [(3, .error .EIO)] ∧
    es.flatMap Episode.reports = [.returned (.closeFailed "f" .EIO)] := by
  let es : List Episode :=
    [⟨.write [120], [.called ⟨.write 3 [120], .ok 1⟩], .ok ()⟩,
      ⟨.close, [.called ⟨.close 3, .error .EIO⟩], .error (.closeFailed "f" .EIO)⟩,
      ⟨.write [120], [], .error (.writeFailed "f" .EBADF)⟩, ⟨.onDrop, [], .ok ()⟩]
  have hwrites : ((owning 3 "f").perform (.write [120])).Does
      [.called ⟨.write 3 [120], .ok 1⟩] (.ok (), owning 3 "f") :=
    Program.does_call.mpr ⟨_, _, rfl, .done _⟩
  have hcloses : ((owning 3 "f").perform .close).Does
      [.called ⟨.close 3, .error .EIO⟩] (.error (.closeFailed "f" .EIO), ⟨none, "f"⟩) :=
    Program.does_call.mpr ⟨_, _, rfl, .done _⟩
  have hrefused : (perform ⟨none, "f"⟩ (.write [120])).Does
      [] (.error (.writeFailed "f" .EBADF), ⟨none, "f"⟩) := .done _
  have hdrops : (perform ⟨none, "f"⟩ .onDrop).Does [] (.ok (), ⟨none, "f"⟩) := .done _
  have hlives : (owning 3 "f").Lives es ⟨none, "f"⟩ :=
    .cons hwrites (.cons hcloses (.cons hrefused (.cons hdrops (.nil _))))
  have hreleases : ∃ e ∈ es, e.operation.releases = true := ⟨es[1], by simp [es], rfl⟩
  obtain ⟨⟨hfd, _⟩, _⟩ := (lives_close_once 3 "f").2.1 es _ hlives hreleases
  exact ⟨es, _, hlives, hreleases, hfd, rfl, rfl⟩

end Descriptor

end OwnedHandles
