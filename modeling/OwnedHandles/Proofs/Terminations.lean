import Mathlib
import OwnedHandles.Proofs.Addressing

namespace OwnedHandles

namespace World

variable {σ α : Type} {w : World σ}

inductive Goes (w : World σ) : Program α → σ → List σ → α → σ → Prop
  | done {a s t} : w.Others s t → Goes w (.done a) s [] a t
  | note {e p s us a t} : Goes w p s us a t → Goes w (.note e p) s us a t
  | call {c next s u b v us a t} : w.Others s u → w.answers u c b v → Goes w (next b) v us a t →
      Goes w (.call c next) s (u :: us) a t

variable {p : Program α} {s t u : σ} {a : α} {us : List σ}

@[simp] theorem goes_done {b : α} :
    w.Goes (.done b) s us a t ↔ us = [] ∧ a = b ∧ w.Others s t := by
  constructor
  · rintro ⟨⟩
    exact ⟨rfl, rfl, ‹_›⟩
  · rintro ⟨rfl, rfl, ho⟩
    exact .done ho

@[simp] theorem goes_note {e : Event} : w.Goes (.note e p) s us a t ↔ w.Goes p s us a t := by
  constructor
  · rintro ⟨⟩
    assumption
  · exact .note

@[simp] theorem goes_call {c : Call} {next : c.Answer → Program α} :
    w.Goes (.call c next) s us a t ↔ ∃ u b v rest, us = u :: rest ∧ w.Others s u ∧
      w.answers u c b v ∧ w.Goes (next b) v rest a t := by
  constructor
  · rintro ⟨⟩
    exact ⟨_, _, _, _, rfl, ‹_›, ‹_›, ‹_›⟩
  · rintro ⟨u, b, v, rest, rfl, ho, ha, hnext⟩
    exact .call ho ha hnext

theorem Goes.others (hp : w.Goes p t us a u) (h : w.Others s t) : w.Goes p s us a u := by
  induction hp with
  | done ho => exact .done (h.trans ho)
  | note _ ih => exact .note (ih h)
  | call ho ha hnext => exact .call (h.trans ho) ha hnext

theorem Goes.returns (h : w.Goes p s us a t) : w.Returns p s a t := by
  induction h with
  | done ho => exact ho.reaches _
  | note _ ih => exact .head .note ih
  | call ho ha _ ih => exact (ho.reaches _).trans (.head (.call ha) ih)

theorem returns_iff_goes : w.Returns p s a t ↔ ∃ us, w.Goes p s us a t := by
  refine ⟨fun h => ?_, fun ⟨_, h⟩ => h.returns⟩
  suffices hreach : ∀ x : Program α × σ, w.Reaches x (.done a, t) → ∃ us, w.Goes x.1 x.2 us a t from
    hreach _ h
  intro x hx
  induction hx using Relation.ReflTransGen.head_induction_on with
  | refl => exact ⟨[], .done (Others.refl w t)⟩
  | head hstep _ ih =>
    obtain ⟨us, hgoes⟩ := ih
    cases hstep with
    | note => exact ⟨us, .note hgoes⟩
    | call ha => exact ⟨_, .call (Others.refl w _) ha hgoes⟩
    | others hm => exact ⟨us, hgoes.others (.single hm)⟩

theorem Meets.answered {q : Contract σ α} (h : w.Meets q p s)
    (hcalls : ∀ t c, q.calls t c → ∃ b u, w.answers t c b u) (hbreaks : ∀ m t, ¬q.breaks m t)
    (hgivesUp : ∀ t, ¬q.givesUp t) {c : Program α × σ} (hr : w.Reaches (p, s) c) :
    ∃ a t, w.Reaches c (.done a, t) := by
  have hc : w.Meets q c.1 c.2 := Meets.reaches (c := (p, s)) h hr
  clear hr h
  obtain ⟨p, s⟩ := c
  induction p generalizing s with
  | done a => exact ⟨a, s, .refl⟩
  | abort m => exact (hbreaks m s (hc s (Others.refl w s))).elim
  | unfinished => exact (hgivesUp s (hc s (Others.refl w s))).elim
  | note e p ih =>
    obtain ⟨a, t, hreach⟩ := ih s hc
    exact ⟨a, t, .head .note hreach⟩
  | call c next ih =>
    obtain ⟨hcall, hnext⟩ := hc s (Others.refl w s)
    obtain ⟨b, u, hb⟩ := hcalls s c hcall
    obtain ⟨a, t, hreach⟩ := ih b u (hnext b u hb)
    exact ⟨a, t, .head (.call hb) hreach⟩

end World

namespace Society

variable {self pid : Pid} {s t : Society} {r : Resident} {signal : Nat}

def Outlived (s : Society) (self : Pid) : Call → Prop
  | .kill pid signal => signal = 0 ∨ ∀ r, s self = some r → ¬s.Meant self pid self r
  | _ => True

theorem outlived_kill (hpos : 0 < pid) (hother : pid ≠ self) :
    s.Outlived self (.kill pid signal) := by
  refine .inr fun r _ hmeant => hother ?_
  exact (hmeant.1.eq (.inl hpos)).2.symm

theorem probe_same {a : Except Errno Unit} (h : answers self s (.kill pid 0) a t) : t = s := by
  cases a with
  | ok _ =>
    obtain ⟨rfl, -⟩ := h
    exact ProcessHandle.deliver_null s self pid
  | error e => exact h.1

theorem kill_of_none (hpos : 0 < pid) (hs : s pid = none) {a : Except Errno Unit} :
    answers self s (.kill pid signal) a t ↔ a = .error .ESRCH ∧ t = s := by
  have hnobody {q : Pid} {r : Resident} (hr : s q = some r) : ¬s.Meant self pid q r := by
    intro hmeant
    obtain ⟨-, rfl⟩ := hmeant.1.eq (.inl hpos)
    cases hs.symm.trans hr
  constructor
  · intro h
    cases a with
    | ok _ =>
      obtain ⟨-, q, r, hr, hmeant, -⟩ := h
      exact (hnobody hr hmeant).elim
    | error e =>
      obtain ⟨rfl, ⟨rfl, -⟩ | ⟨-, -, ⟨q, r, hr, hmeant⟩, -⟩⟩ := h
      · exact ⟨rfl, rfl⟩
      · exact (hnobody hr hmeant).elim
  · rintro ⟨rfl, rfl⟩
    exact ⟨rfl, .inl ⟨rfl, fun q r hr => hnobody hr⟩⟩

theorem deliver_eq (hpos : 0 < pid) (hs : s pid = some r) (hreachable : r.reachable = true) :
    s.deliver self pid signal = Function.update s pid (some (r.receive signal)) := by
  funext q
  by_cases hq : q = pid
  · subst hq
    simp [deliver_self hpos, hs, hreachable]
  · rw [deliver_of_ne (.inl hpos) hq, Function.update_of_ne hq]

theorem kill_of_some (hpos : 0 < pid) (hs : s pid = some r) (hreachable : r.reachable = true)
    {a : Except Errno Unit} : answers self s (.kill pid signal) a t ↔
      a = .ok () ∧ t = Function.update s pid (some (r.receive signal)) := by
  have hdelivered : s.deliver self pid signal = _ := deliver_eq hpos hs hreachable
  rw [← hdelivered]
  constructor
  · intro h
    cases a with
    | ok _ => exact ⟨rfl, h.1⟩
    | error e =>
      obtain ⟨-, ⟨-, hnobody⟩ | ⟨-, -, -, hrefused⟩⟩ := h
      · exact (hnobody pid r hs (meant_self hpos)).elim
      · exact absurd (hrefused pid r hs (meant_self hpos)) (by simp [hreachable])
  · rintro ⟨rfl, rfl⟩
    exact ⟨rfl, pid, r, hs, meant_self hpos, .inl hreachable⟩

end Society

/-- The society for a process that a signal of its own puts an end to. -/
def World.mortal (self : Pid) (law : Law) : World Society where
  answers s c a t := s.Outlived self c ∧ Society.answers self s c a t
  moves := (World.society self law).moves

namespace ProcessHandle

variable {self : Pid} {law : Law} {s t u : Society} {p : ProcessHandle} {us : List Society}
  {r : Except Failure Unit}

def signalled (p : ProcessHandle) (s : Signal) : Event :=
  { level := .debug, source := .handle, message := "signal sent"
    fields := [("pid", .number p.pid), ("signal", .text s.name)] }

theorem terminate_run (p : ProcessHandle) :
    p.terminate.run = .call (.kill p.pid 0) fun there => match there with
      | .error _ => .done (.ok ())
      | .ok _ => .call (.kill p.pid Signal.SIGTERM.number) fun sent => match sent with
        | .error e => .done (.error (.callFailed "kill" p.context e))
        | .ok _ => .note (p.signalled .SIGTERM) (.done (.ok ())) := by
  change Program.call _ _ = _
  congr 1
  funext there
  cases there with
  | error e => rfl
  | ok _ =>
    change Program.call _ _ = _
    congr 1
    funext sent
    cases sent <;> rfl

/-- The process was there for the probe and not any more for the signal. -/
def GoneBetween (pid : Pid) (us : List Society) : Prop :=
  ∃ u v, us = [u, v] ∧ u pid ≠ none ∧ v pid = none

def MaySignal (law : Law) (s : Society) (pid : Pid) : Prop :=
  ∀ x, law.Evolves pid (s pid) (some x) → x.reachable = true

theorem MaySignal.others (hmay : MaySignal law s p.pid) (h : (World.mortal self law).Others s t) :
    MaySignal law t p.pid := by
  have hevolves : law.Evolves p.pid (s p.pid) (t p.pid) :=
    World.society.others_evolve (show (World.society self law).Others s t from h) p.pid
  exact fun x hx => hmay x (hevolves.trans hx)

theorem MaySignal.reachable (hmay : MaySignal law s p.pid) {x : Resident} (hx : s p.pid = some x) :
    x.reachable = true := hmay x (hx ▸ .refl)

def signalling (law : Law) (pid : Pid) : Contract Society (Except Failure Unit) where
  calls s c := (∃ signal, c = .kill pid signal) ∧ MaySignal law s pid
  returns _ _ := True
  breaks _ _ := False
  givesUp _ := False

theorem terminate_completes (hpos : 0 < p.pid) (hother : p.pid ≠ self)
    (hmay : MaySignal law s p.pid) {c : Program (Except Failure Unit) × Society}
    (hc : (World.mortal self law).Reaches (p.terminate.run, s) c) :
    ∃ r t, (World.mortal self law).Reaches c (.done r, t) := by
  have hmeets : (World.mortal self law).Meets (signalling law p.pid) p.terminate.run s := by
    rw [terminate_run]
    intro u hu
    refine ⟨⟨⟨0, rfl⟩, hmay.others hu⟩, fun there v hv => ?_⟩
    obtain rfl := Society.probe_same hv.2
    cases there with
    | error e => exact fun _ _ => trivial
    | ok _ =>
      intro t ht
      refine ⟨⟨⟨15, rfl⟩, (hmay.others hu).others ht⟩, fun sent w _ => ?_⟩
      cases sent with
      | error e => exact fun _ _ => trivial
      | ok _ => exact fun _ _ => trivial
  refine hmeets.answered ?_ (fun _ _ => id) (fun _ => id) hc
  rintro u _ ⟨⟨signal, rfl⟩, hmay⟩
  have houtlived : u.Outlived self (.kill p.pid signal) := Society.outlived_kill hpos hother
  cases hu : u p.pid with
  | none => exact ⟨_, _, houtlived, (Society.kill_of_none hpos hu).mpr ⟨rfl, rfl⟩⟩
  | some x =>
    exact ⟨_, _, houtlived, (Society.kill_of_some hpos hu (hmay.reachable hu)).mpr ⟨rfl, rfl⟩⟩

/-- How the two calls of a termination may find the process, and what comes of it. -/
inductive Course (self : Pid) (law : Law) (p : ProcessHandle) (s : Society) :
    List Society → Except Failure Unit → Society → Prop
  | absent {u t : Society} : (World.mortal self law).Others s u → u p.pid = none →
      (World.mortal self law).Others u t → Course self law p s [u] (.ok ()) t
  | sent {u v t : Society} {x y : Resident} : (World.mortal self law).Others s u →
      u p.pid = some x → (World.mortal self law).Others u v → v p.pid = some y →
      (World.mortal self law).Others
        (Function.update v p.pid (some (y.receive Signal.SIGTERM.number))) t →
      Course self law p s [u, v] (.ok ()) t
  | missed {u v t : Society} {x : Resident} : (World.mortal self law).Others s u →
      u p.pid = some x → (World.mortal self law).Others u v → v p.pid = none →
      (World.mortal self law).Others v t →
      Course self law p s [u, v] (.error (.callFailed "kill" p.context .ESRCH)) t

theorem terminate_course (hpos : 0 < p.pid) (hmay : MaySignal law s p.pid)
    (h : (World.mortal self law).Goes p.terminate.run s us r t) : Course self law p s us r t := by
  rw [terminate_run] at h
  obtain ⟨u, there, v, rest, rfl, hu, hthere, hrest⟩ := World.goes_call.mp h
  obtain rfl := Society.probe_same hthere.2
  have hmay := hmay.others hu
  cases hpresent : v p.pid with
  | none =>
    obtain ⟨rfl, -⟩ := (Society.kill_of_none hpos hpresent).mp hthere.2
    obtain ⟨rfl, rfl, ht⟩ := World.goes_done.mp hrest
    exact .absent hu hpresent ht
  | some x =>
    obtain ⟨rfl, -⟩ := (Society.kill_of_some hpos hpresent (hmay.reachable hpresent)).mp hthere.2
    obtain ⟨w, sent, z, rest, rfl, hw, hsent, hend⟩ := World.goes_call.mp hrest
    have hmay := hmay.others hw
    cases hstill : w p.pid with
    | none =>
      obtain ⟨rfl, rfl⟩ := (Society.kill_of_none hpos hstill).mp hsent.2
      obtain ⟨rfl, rfl, ht⟩ := World.goes_done.mp hend
      exact .missed hu hpresent hw hstill ht
    | some y =>
      obtain ⟨rfl, rfl⟩ := (Society.kill_of_some hpos hstill (hmay.reachable hstill)).mp hsent.2
      obtain ⟨rfl, rfl, ht⟩ := World.goes_done.mp (World.goes_note.mp hend)
      exact .sent hu hpresent hw hstill ht

theorem terminate_returns (hpos : 0 < p.pid) (hmay : MaySignal law s p.pid)
    (h : (World.mortal self law).Returns p.terminate.run s r t) :
    (r = .ok () ∨ r = .error (.callFailed "kill" p.context .ESRCH)) ∧
      ∃ us, (World.mortal self law).Goes p.terminate.run s us r t := by
  obtain ⟨us, h⟩ := World.returns_iff_goes.mp h
  refine ⟨?_, us, h⟩
  cases terminate_course hpos hmay h with
  | absent => exact .inl rfl
  | sent => exact .inl rfl
  | missed => exact .inr rfl

/-- Where the process can be sent signals as long as it is there, its termination always comes to a
result, unless a process terminates itself. The only failure is that there is no such process, and
that is the result exactly if the process goes between the two calls. A process that is there for
both gets one signal, and nothing is sent if it is gone at the first. -/
theorem terminates_unless_gone_between {self : Pid} {law : Law} {s : Society} {p : ProcessHandle}
    (hpos : 0 < p.pid) (hmay : MaySignal law s p.pid) :
    (p.pid ≠ self → ∀ c, (World.mortal self law).Reaches (p.terminate.run, s) c →
      ∃ r t, (World.mortal self law).Reaches c (.done r, t)) ∧
    (∀ r t, (World.mortal self law).Returns p.terminate.run s r t →
      (r = .ok () ∨ r = .error (.callFailed "kill" p.context .ESRCH)) ∧
        ∃ us, (World.mortal self law).Goes p.terminate.run s us r t) ∧
    ∀ us r t, (World.mortal self law).Goes p.terminate.run s us r t →
      (r = .ok () ↔ ¬GoneBetween p.pid us) ∧
      ((∀ u ∈ us, u p.pid ≠ none) → ∃ v x, v p.pid = some x ∧ (World.mortal self law).Others s v ∧
        (World.mortal self law).Others
          (Function.update v p.pid (some (x.receive Signal.SIGTERM.number))) t) ∧
      ((∃ u ∈ us.head?, u p.pid = none) → (World.mortal self law).Others s t) := by
  refine ⟨fun hother c hc => terminate_completes hpos hother hmay hc,
    fun r t h => terminate_returns hpos hmay h, fun us r t h => ?_⟩
  cases terminate_course hpos hmay h with
  | absent hu hgone ht =>
    exact ⟨by simp [GoneBetween], by simp [hgone], fun _ => hu.trans ht⟩
  | @sent u v _ _ _ hu hpresent hv hstill ht =>
    refine ⟨iff_of_true rfl ?_, fun _ => ⟨_, _, hstill, hu.trans hv, ht⟩, by simp [hpresent]⟩
    rintro ⟨_, _, ⟨⟩, -, hgone⟩
    exact Option.some_ne_none _ (hstill.symm.trans hgone)
  | @missed u v _ _ _ hpresent _ hgone _ =>
    have hbetween : GoneBetween p.pid [u, v] := ⟨u, v, rfl, by simp [hpresent], hgone⟩
    exact ⟨iff_of_false nofun (not_not_intro hbetween), by simp [hgone], by simp [hpresent]⟩

def passing : Law := fun q r r' => ∃ x, r = some x ∧ x.child = true ∧
  ((x.news = none ∧ r' = some { x with news := some (.exited q 0) }) ∨ (x.news ≠ none ∧ r' = none))

theorem passing_reachable {q : Pid} {x : Resident} (hx : x.reachable = true) :
    ∀ r, passing.Evolves q (some x) r → ∀ y, r = some y → y.reachable = true := by
  intro r h
  induction h with
  | refl =>
    rintro y ⟨⟩
    exact hx
  | tail _ hstep ih =>
    obtain ⟨z, rfl, -, ⟨-, rfl⟩ | ⟨-, rfl⟩⟩ := hstep
    · rintro y ⟨⟩
      exact ih z rfl
    · rintro y ⟨⟩

def child : Resident := ⟨true, 1, true, none, []⟩

def couple : Society := fun q =>
  if q = 1 then some ⟨false, 1, true, none, []⟩
  else if q = 2 then some child
  else none

def exited : Society :=
  Function.update couple 2 (some { child with news := some (.exited 2 0) })

def reaped : Society := Function.update exited 2 none

theorem couple_passes : (World.society 1 passing).Others couple reaped :=
  .tail (.single ⟨2, _, ⟨child, rfl, rfl, .inl ⟨rfl, rfl⟩⟩, rfl⟩)
    ⟨2, none, ⟨_, Function.update_self 2 _ couple, rfl, .inr ⟨nofun, rfl⟩⟩, rfl⟩

theorem maySignal_couple : MaySignal passing couple 2 := fun x h =>
  passing_reachable (x := child) rfl (some x) h x rfl

theorem couple_probed : (World.mortal 1 passing).answers couple (.kill 2 0) (.ok ()) couple :=
  ⟨.inl rfl, (Society.kill_of_some (r := child) (by decide) rfl rfl).mpr
    ⟨rfl, (Function.update_eq_self 2 couple).symm⟩⟩

/-- A child that stays while it is terminated gets the signal. -/
theorem couple_terminates : ∃ t, t 2 = some (child.receive 15) ∧
    (World.mortal 1 passing).Goes (terminate ⟨2, none⟩).run couple [couple, couple] (.ok ()) t := by
  have hsignal : (World.mortal 1 passing).answers couple (.kill 2 15) (.ok ())
      (Function.update couple 2 (some (child.receive 15))) :=
    ⟨Society.outlived_kill (by decide) (by decide),
      (Society.kill_of_some (r := child) (by decide) rfl rfl).mpr ⟨rfl, rfl⟩⟩
  refine ⟨_, Function.update_self 2 _ couple, ?_⟩
  rw [terminate_run]
  exact .call (.refl _ couple) couple_probed
    (.call (.refl _ couple) hsignal (.note (.done (.refl _ _))))

theorem terminates_unless_gone_between_child :
    (0 : Pid) < 2 ∧ (2 : Pid) ≠ 1 ∧ MaySignal passing couple 2 ∧
    (∀ c, (World.mortal 1 passing).Reaches ((terminate ⟨2, none⟩).run, couple) c →
      ∃ r t, (World.mortal 1 passing).Reaches c (.done r, t)) ∧
    ∃ us t, ¬GoneBetween 2 us ∧ t 2 = some (child.receive 15) ∧
      (World.mortal 1 passing).Goes (terminate ⟨2, none⟩).run couple us (.ok ()) t := by
  have hpos : (0 : Pid) < 2 := by decide
  have hother : (2 : Pid) ≠ 1 := by decide
  obtain ⟨hcompletes, -, hruns⟩ :=
    @terminates_unless_gone_between 1 passing couple ⟨2, none⟩ hpos maySignal_couple
  obtain ⟨t, ht, hgoes⟩ := couple_terminates
  exact ⟨hpos, hother, maySignal_couple, hcompletes hother, _, t,
    (hruns _ _ t hgoes).1.mp rfl, ht, hgoes⟩

/-- A child that exits and is reaped between the two calls is not there for the signal, and a
process that terminates itself does not come back to tell. -/
theorem termination_comes_too_late :
    (MaySignal passing couple 2 ∧
      ∃ us t, (World.mortal 1 passing).Goes (terminate ⟨2, none⟩).run couple us
        (.error (.callFailed "kill" "on process pid: 2" .ESRCH)) t) ∧
    (bereaved.run (Kernel.State.answer 1) [] (terminate ⟨1, none⟩).run).outcome = .gone := by
  have hgone : reaped 2 = none := Function.update_self _ _ _
  have hsignal : (World.mortal 1 passing).answers reaped (.kill 2 15) (.error .ESRCH) reaped :=
    ⟨Society.outlived_kill (by decide) (by decide),
      (Society.kill_of_none (by decide) hgone).mpr ⟨rfl, rfl⟩⟩
  have hcontext : context ⟨2, none⟩ = "on process pid: 2" := by decide +kernel
  refine ⟨⟨maySignal_couple, [couple, reaped], reaped, ?_⟩, rfl⟩
  rw [terminate_run, ← hcontext]
  exact .call (.refl _ couple) couple_probed
    (.call couple_passes hsignal (.done (.refl _ reaped)))

end ProcessHandle

end OwnedHandles
