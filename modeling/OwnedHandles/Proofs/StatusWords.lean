import Mathlib.Tactic.Common
import OwnedHandles.Proofs.Runs
import OwnedHandles.ProcessHandle

namespace OwnedHandles

/-- What a word says about a process. Signals are by number, whether or not they have a name. -/
inductive Notice
  | exited (code : Nat)
  | killed (signal : Nat) (core : Bool)
  | stopped (signal : Nat)
  | traced (signal : Nat) (event : Int)
  | tracedCall
  | resumed
  | stray
  deriving DecidableEq, Repr

namespace Notice

variable {w : BitVec 32} {n : Notice}

def Tells (w : BitVec 32) : Notice → Prop
  | exited code => w.toNat % 128 = 0 ∧ w.toNat / 256 % 256 = code
  | killed k core =>
    w.toNat % 128 = k ∧ 0 < k ∧ k < 127 ∧ (core = true ↔ 128 ≤ w.toNat % 256)
  | stopped k =>
    w.toNat % 256 = 127 ∧ w.toNat / 256 % 256 = k ∧ k ≠ 0x85 ∧ w.toInt / 65536 = 0
  | traced k event =>
    w.toNat % 256 = 127 ∧ w.toNat / 256 % 256 = k ∧ k ≠ 0x85 ∧ w.toInt / 65536 = event ∧ event ≠ 0
  | tracedCall => w.toNat % 256 = 127 ∧ w.toNat / 256 % 256 = 0x85
  | resumed => w.toNat = 0xffff
  | stray => w.toNat % 256 = 255 ∧ w.toNat ≠ 0xffff

theorem exists_tells (w : BitVec 32) : ∃ n, Tells w n := by
  by_cases hexit : w.toNat % 128 = 0
  · exact ⟨exited _, hexit, rfl⟩
  by_cases hkill : w.toNat % 128 < 127
  · exact ⟨killed _ (decide (128 ≤ w.toNat % 256)), rfl, by omega, hkill, by simp⟩
  by_cases hstop : w.toNat % 256 = 127
  · by_cases hcall : w.toNat / 256 % 256 = 0x85
    · exact ⟨tracedCall, hstop, hcall⟩
    · by_cases hevent : w.toInt / 65536 = 0
      · exact ⟨stopped _, hstop, rfl, hcall, hevent⟩
      · exact ⟨traced _ _, hstop, rfl, hcall, rfl, hevent⟩
  by_cases hresumed : w.toNat = 0xffff
  · exact ⟨resumed, hresumed⟩
  · exact ⟨stray, by omega, hresumed⟩

theorem Tells.unique {m : Notice} (hm : Tells w m) (hn : Tells w n) : m = n := by
  cases m <;> cases n <;> simp only [Tells, exited.injEq, killed.injEq, stopped.injEq,
    traced.injEq, reduceCtorEq] at hm hn ⊢ <;> try omega
  obtain ⟨rfl, -, -, hm⟩ := hm
  obtain ⟨rfl, -, -, hn⟩ := hn
  exact ⟨rfl, Bool.eq_iff_iff.mpr (hm.trans hn.symm)⟩

theorem existsUnique_tells (w : BitVec 32) : ∃! n, Tells w n := by
  obtain ⟨n, hn⟩ := exists_tells w
  exact ⟨n, hn, fun m hm => hm.unique hn⟩

def signal? : Notice → Option Nat
  | killed k _ | stopped k | traced k _ => some k
  | exited _ | tracedCall | resumed | stray => none

def status? (pid : Pid) : Notice → Option WaitStatus
  | exited code => some (.exited pid code)
  | killed k core => (Signal.ofNumber? k).map (.signaled pid · core)
  | stopped k => (Signal.ofNumber? k).map (.stopped pid)
  | traced k event => (Signal.ofNumber? k).map (.traceEvent pid · event)
  | tracedCall => some (.traceSyscall pid)
  | resumed => some (.continued pid)
  | stray => none

end Notice

namespace WaitStatus

variable {w : BitVec 32} {n : Notice}

theorem kind_toNat (w : BitVec 32) : (w &&& 0x7f#32).toNat = w.toNat % 128 := by
  rw [BitVec.toNat_and]
  exact Nat.and_two_pow_sub_one_eq_mod w.toNat 7

theorem lowByte_toNat (w : BitVec 32) : (w &&& 0xff#32).toNat = w.toNat % 256 := by
  rw [BitVec.toNat_and]
  exact Nat.and_two_pow_sub_one_eq_mod w.toNat 8

theorem secondByte_toNat (w : BitVec 32) :
    ((w >>> 8) &&& 0xff#32).toNat = w.toNat / 256 % 256 := by
  rw [lowByte_toNat, BitVec.toNat_ushiftRight, Nat.shiftRight_eq_div_pow]

theorem core_eq (w : BitVec 32) : w.getLsbD 7 = decide (128 ≤ w.toNat % 256) := by
  rw [BitVec.getLsbD, Nat.testBit_eq_decide_div_mod_eq]
  apply decide_eq_decide.mpr
  omega

theorem event_toInt (w : BitVec 32) : (w.sshiftRight 16).toInt = w.toInt / 65536 := by
  rw [BitVec.toInt_sshiftRight, Int.shiftRight_eq_div_pow]
  rfl

theorem lowByte_eq_iff (w v : BitVec 32) :
    w &&& 0xff#32 = v ↔ w.toNat % 256 = v.toNat := by
  rw [← lowByte_toNat, BitVec.toNat_inj]

theorem isStray_iff : isStray w = true ↔ Notice.Tells w .stray := by
  have hlow := lowByte_eq_iff w 0xff#32
  have hword : w = continuedWord ↔ w.toNat = 0xffff := BitVec.toNat_inj.symm
  simp [isStray, hlow, hword, Notice.Tells]

theorem decode?_eq (hn : Notice.Tells w n) (pid : Pid) : decode? pid w = n.status? pid := by
  have hstop := lowByte_eq_iff w 0x7f#32
  have hstray : isStray w = true ↔ w.toNat % 256 = 255 ∧ w.toNat ≠ 0xffff := isStray_iff
  simp only [decode?, kind_toNat, secondByte_toNat, core_eq, event_toInt, hstop, hstray,
    traceSyscallStop]
  cases n with
  | exited code =>
    obtain ⟨hkind, rfl⟩ := hn
    simp [hkind, Notice.status?]
  | killed k core =>
    obtain ⟨rfl, hpos, hlt, hcore⟩ := hn
    have hcore : decide (128 ≤ w.toNat % 256) = core := by
      rw [Bool.eq_iff_iff, decide_eq_true_iff, hcore]
    simp [Nat.ne_of_gt hpos, hlt, hcore, Notice.status?]
  | stopped k =>
    obtain ⟨hlow, rfl, hcall, hevent⟩ := hn
    have hkind : w.toNat % 128 = 127 := by omega
    simp [hkind, hlow, hcall, hevent, Notice.status?]
  | traced k event =>
    obtain ⟨hlow, rfl, hcall, rfl, hevent⟩ := hn
    have hkind : w.toNat % 128 = 127 := by omega
    simp [hkind, hlow, hcall, hevent, Notice.status?]
  | tracedCall =>
    obtain ⟨hlow, hcall⟩ := hn
    have hkind : w.toNat % 128 = 127 := by omega
    simp [hkind, hlow, hcall, Notice.status?]
  | resumed =>
    have hword : w.toNat = 0xffff := hn
    simp [hword, Notice.status?]
  | stray =>
    obtain ⟨hlow, hword⟩ := hn
    have hkind : w.toNat % 128 = 127 := by omega
    simp [hkind, hlow, hword, Notice.status?]

theorem ofWord_eq (hn : Notice.Tells w n) (hstray : n ≠ .stray) (pid : Pid) :
    ofWord pid w = .done (match n.status? pid with
      | some status => .ok status
      | none => .error .EINVAL) := by
  have hstray : ¬isStray w = true := fun h => hstray (hn.unique (isStray_iff.mp h))
  unfold ofWord
  rw [if_neg hstray, decode?_eq hn]
  cases n.status? pid <;> rfl

end WaitStatus

namespace Signal

theorem number_range (s : Signal) : 1 ≤ s.number ∧ s.number ≤ 31 := by cases s <;> decide

theorem range_of_ofNumber? {k : Nat} {s : Signal} (h : ofNumber? k = some s) :
    1 ≤ k ∧ k ≤ 31 :=
  number_eq h ▸ s.number_range

theorem ofNumber?_eq_none_iff {k : Nat} : ofNumber? k = none ↔ ¬(1 ≤ k ∧ k ≤ 31) := by
  constructor
  · have hall : ∀ k ≤ 31, 1 ≤ k → ofNumber? k ≠ none := by decide
    exact fun h hk => hall k hk.2 hk.1 h
  · intro h
    by_contra hsome
    obtain ⟨s, hs⟩ := Option.ne_none_iff_exists'.mp hsome
    exact h (range_of_ofNumber? hs)

end Signal

/-- The program where every wait gives the word `w` about this child, which need not be the process
that was asked for. -/
def Program.hearing {α : Type} (child : Pid) (w : BitVec 32) : Program α → Program α
  | .done a => .done a
  | .abort m => .abort m
  | .unfinished => .unfinished
  | .note e p => .note e (p.hearing child w)
  | .call (.wait _) next => (WaitStatus.ofWord child w).bind fun a => (next a).hearing child w
  | .call c next => .call c fun a => (next a).hearing child w

namespace ProcessHandle

variable {self child : Pid} {p : ProcessHandle} {w : BitVec 32} {strict : Bool}

def nonZeroAsFailure : Except Failure Int → Except Failure Int
  | .ok c => if c = 0 then .ok c else .error (.nonZeroExit c)
  | .error f => .error f

/-- The result `r` of a join tells what the word of its wait says. -/
structure Reading (p : ProcessHandle) (child : Pid) (w : BitVec 32) (strict : Bool)
    (r : Except Failure Int) : Prop where
  ok_iff : ∀ c, r = .ok c ↔
    ∃ code : Nat, Notice.Tells w (.exited code) ∧ c = code ∧ (code = 0 ∨ strict = false)
  nonZeroExit_iff : ∀ c, r = .error (.nonZeroExit c) ↔
    ∃ code : Nat, Notice.Tells w (.exited code) ∧ c = code ∧ code ≠ 0 ∧ strict = true
  signaled_iff : ∀ s, r = .error (.signaled s) ↔
    ∃ k : Nat, (Notice.Tells w (.stopped k) ∨ ∃ core, Notice.Tells w (.killed k core)) ∧
      s = k ∧ 1 ≤ k ∧ k ≤ 31
  refused_iff : WaitStatus.ofWord child w = .done (.error .EINVAL) ↔
    ∃ n k, Notice.Tells w n ∧ n.signal? = some k ∧ ¬(1 ≤ k ∧ k ≤ 31)
  refused : WaitStatus.ofWord child w = .done (.error .EINVAL) →
    r = .error (.callFailed "waitpid" p.context .EINVAL)
  interpreted : ∀ status, WaitStatus.ofWord child w = .done (.ok status) →
    r = status.outcome strict
  unexpected : ∀ n status, Notice.Tells w n → n.status? child = some status →
    (n = .tracedCall ∨ n = .resumed ∨ ∃ k event, n = .traced k event) →
      r = .error (.callFailed "waitpid" ("returned unexpected status " ++ status.text) .EINVAL)
  remaining : (∀ c, r ≠ .ok c) → (∀ c, r ≠ .error (.nonZeroExit c)) →
    (∀ s, r ≠ .error (.signaled s)) → ∃ context, r = .error (.callFailed "waitpid" context .EINVAL)
  code_range : ∀ c, r = .ok c ∨ r = .error (.nonZeroExit c) → 0 ≤ c ∧ c ≤ 255

theorem join_run (h : p.pid ≠ self) (strict : Bool) :
    (p.join self strict).run = .call (.wait p.pid) fun a => match a with
      | .error e => .done (.error (.callFailed "waitpid" p.context e))
      | .ok status =>
        .note (p.ended (status.outcome strict)) (.done (status.outcome strict)) := by
  unfold join
  rw [if_neg h]
  change Program.call _ _ = _
  congr 1
  funext a
  cases a with
  | error e => rfl
  | ok status =>
    change Program.note _ (ExceptT.run (MonadExcept.ofExcept _)) = _
    rw [Action.run_ofExcept]

theorem join_hearing (h : p.pid ≠ self) (child : Pid) (w : BitVec 32) (strict : Bool) :
    (p.join self strict).run.hearing child w =
      (WaitStatus.ofWord child w).bind fun a => match a with
      | .error e => .done (.error (.callFailed "waitpid" p.context e))
      | .ok status =>
        .note (p.ended (status.outcome strict)) (.done (status.outcome strict)) := by
  rw [join_run h]
  change Program.bind _ _ = _
  congr 1
  funext a
  cases a <;> rfl

def judged (p : ProcessHandle) (child : Pid) (strict : Bool) (n : Notice) : Except Failure Int :=
  match n.status? child with
  | some status => status.outcome strict
  | none => .error (.callFailed "waitpid" p.context .EINVAL)

theorem judged_strict (p : ProcessHandle) (child : Pid) (n : Notice) :
    p.judged child true n = nonZeroAsFailure (p.judged child false n) := by
  unfold judged
  cases n.status? child with
  | none => rfl
  | some status =>
    cases status <;> simp [WaitStatus.outcome, nonZeroAsFailure]

inductive Judged (p : ProcessHandle) (child : Pid) (strict : Bool) :
    Notice → Except Failure Int → Prop
  | code {code : Nat} : code = 0 ∨ strict = false → Judged p child strict (.exited code) (.ok code)
  | nonZero {code : Nat} : code ≠ 0 → strict = true →
      Judged p child strict (.exited code) (.error (.nonZeroExit code))
  | killed {k : Nat} {core : Bool} : 1 ≤ k ∧ k ≤ 31 →
      Judged p child strict (.killed k core) (.error (.signaled k))
  | stopped {k : Nat} : 1 ≤ k ∧ k ≤ 31 → Judged p child strict (.stopped k) (.error (.signaled k))
  | refused {n : Notice} {k : Nat} : n.signal? = some k → ¬(1 ≤ k ∧ k ≤ 31) →
      Judged p child strict n (.error (.callFailed "waitpid" p.context .EINVAL))
  | unexpected {n : Notice} {status : WaitStatus} : n.status? child = some status →
      (n = .tracedCall ∨ n = .resumed ∨ ∃ k event, n = .traced k event) →
      Judged p child strict n
        (.error (.callFailed "waitpid" ("returned unexpected status " ++ status.text) .EINVAL))

theorem judged_of_signal {n : Notice} {k : Nat} (hk : n.signal? = some k)
    (hnone : Signal.ofNumber? k = none) (strict : Bool) :
    Judged p child strict n (p.judged child strict n) := by
  have hjudged : p.judged child strict n = .error (.callFailed "waitpid" p.context .EINVAL) := by
    cases n <;> cases hk <;> simp [judged, Notice.status?, hnone]
  rw [hjudged]
  exact .refused hk (Signal.ofNumber?_eq_none_iff.mp hnone)

theorem judged_of_notice {n : Notice} (hn : n ≠ .stray) (p : ProcessHandle) (child : Pid)
    (strict : Bool) :
    Judged p child strict n (p.judged child strict n) := by
  cases n with
  | exited code =>
    simp only [judged, Notice.status?, WaitStatus.outcome]
    split
    · exact .nonZero (by omega) (by simp_all)
    · exact .code (by cases strict <;> simp_all)
  | killed k core =>
    cases hk : Signal.ofNumber? k with
    | none => exact judged_of_signal rfl hk strict
    | some s =>
      simp only [judged, Notice.status?, hk, Option.map_some, WaitStatus.outcome]
      rw [Signal.number_eq hk]
      exact .killed (Signal.range_of_ofNumber? hk)
  | stopped k =>
    cases hk : Signal.ofNumber? k with
    | none => exact judged_of_signal rfl hk strict
    | some s =>
      simp only [judged, Notice.status?, hk, Option.map_some, WaitStatus.outcome]
      rw [Signal.number_eq hk]
      exact .stopped (Signal.range_of_ofNumber? hk)
  | traced k event =>
    cases hk : Signal.ofNumber? k with
    | none => exact judged_of_signal rfl hk strict
    | some s =>
      have hstatus : (Notice.traced k event).status? child = some (.traceEvent child s event) := by
        simp [Notice.status?, hk]
      simp only [judged, hstatus]
      exact .unexpected hstatus (.inr (.inr ⟨k, event, rfl⟩))
  | tracedCall => exact .unexpected rfl (.inl rfl)
  | resumed => exact .unexpected rfl (.inr (.inl rfl))
  | stray => exact (hn rfl).elim

namespace Judged

variable {n : Notice} {r : Except Failure Int} {c : Int}

theorem ok_iff (h : Judged p child strict n r) :
    r = .ok c ↔ ∃ code : Nat, n = .exited code ∧ c = code ∧ (code = 0 ∨ strict = false) := by
  constructor
  · rintro rfl
    cases h with
    | code hcode => exact ⟨_, rfl, rfl, hcode⟩
  · rintro ⟨code, rfl, rfl, hcode⟩
    cases h with
    | code _ => rfl
    | nonZero hzero hstrict => simp [hzero, hstrict] at hcode
    | refused hk _ => cases hk
    | unexpected _ hn => simp at hn

theorem nonZeroExit_iff (h : Judged p child strict n r) : r = .error (.nonZeroExit c) ↔
    ∃ code : Nat, n = .exited code ∧ c = code ∧ code ≠ 0 ∧ strict = true := by
  constructor
  · rintro rfl
    cases h with
    | nonZero hzero hstrict => exact ⟨_, rfl, rfl, hzero, hstrict⟩
  · rintro ⟨code, rfl, rfl, hzero, hstrict⟩
    cases h with
    | code hcode => simp [hzero, hstrict] at hcode
    | nonZero _ _ => rfl
    | refused hk _ => cases hk
    | unexpected _ hn => simp at hn

theorem signaled_iff (h : Judged p child strict n r) : r = .error (.signaled c) ↔
    ∃ k : Nat, (n = .stopped k ∨ ∃ core, n = .killed k core) ∧ c = k ∧ 1 ≤ k ∧ k ≤ 31 := by
  constructor
  · rintro rfl
    cases h with
    | killed hk => exact ⟨_, .inr ⟨_, rfl⟩, rfl, hk⟩
    | stopped hk => exact ⟨_, .inl rfl, rfl, hk⟩
  · rintro ⟨k, rfl | ⟨core, rfl⟩, rfl, hrange⟩
    · cases h with
      | stopped _ => rfl
      | refused hk hunnamed =>
        cases hk
        exact (hunnamed hrange).elim
      | unexpected _ hn => simp at hn
    · cases h with
      | killed _ => rfl
      | refused hk hunnamed =>
        cases hk
        exact (hunnamed hrange).elim
      | unexpected _ hn => simp at hn

theorem remaining (h : Judged p child strict n r) (hok : ∀ c, r ≠ .ok c)
    (hcode : ∀ c, r ≠ .error (.nonZeroExit c)) (hsignal : ∀ s, r ≠ .error (.signaled s)) :
    ∃ context, r = .error (.callFailed "waitpid" context .EINVAL) := by
  cases h with
  | code _ => exact (hok _ rfl).elim
  | nonZero _ _ => exact (hcode _ rfl).elim
  | killed _ | stopped _ => exact (hsignal _ rfl).elim
  | refused _ _ | unexpected _ _ => exact ⟨_, rfl⟩

end Judged

theorem status?_eq_none_iff {n : Notice} (hn : n ≠ .stray) (pid : Pid) :
    n.status? pid = none ↔ ∃ k, n.signal? = some k ∧ ¬(1 ≤ k ∧ k ≤ 31) := by
  cases n with
  | stray => exact (hn rfl).elim
  | _ => simp [Notice.status?, Notice.signal?, Signal.ofNumber?_eq_none_iff]

theorem reading_judged {n : Notice} (hn : Notice.Tells w n) (hstray : n ≠ .stray)
    (p : ProcessHandle) (child : Pid) (strict : Bool) :
    Reading p child w strict (p.judged child strict n) := by
  have htells (m : Notice) : Notice.Tells w m ↔ n = m := ⟨fun hm => hn.unique hm, fun h => h ▸ hn⟩
  have hword := WaitStatus.ofWord_eq hn hstray child
  have hjudged := judged_of_notice hstray p child strict
  constructor
  case ok_iff => simpa only [htells] using fun c => hjudged.ok_iff
  case nonZeroExit_iff => simpa only [htells] using fun c => hjudged.nonZeroExit_iff
  case signaled_iff => simpa only [htells] using fun s => hjudged.signaled_iff
  case refused_iff =>
    have hnone := status?_eq_none_iff hstray child
    rw [hword]
    cases hstatus : n.status? child <;> simp_all
  case refused =>
    rw [hword]
    cases hstatus : n.status? child <;> simp [judged, hstatus]
  case interpreted =>
    rw [hword]
    cases hstatus : n.status? child <;> simp [judged, hstatus]
  case unexpected =>
    intro m status hm hstatus hkind
    obtain rfl := (htells m).mp hm
    simp only [judged, hstatus]
    obtain rfl | rfl | ⟨k, event, rfl⟩ := hkind
    · cases hstatus
      rfl
    · cases hstatus
      rfl
    · obtain ⟨s, -, rfl⟩ := Option.map_eq_some_iff.mp hstatus
      rfl
  case remaining => exact hjudged.remaining
  case code_range =>
    have hcode (code : Nat) (h : n = .exited code) : 0 ≤ (code : Int) ∧ (code : Int) ≤ 255 := by
      obtain ⟨-, rfl⟩ := (htells _).mpr h
      omega
    rintro c (h | h)
    · obtain ⟨code, hn, rfl, -⟩ := hjudged.ok_iff.mp h
      exact hcode code hn
    · obtain ⟨code, hn, rfl, -⟩ := hjudged.nonZeroExit_iff.mp h
      exact hcode code hn

/-- A word says one thing only, and the result of a join is what its word says. With `strict` the
result is the lenient one with every code that is not zero turned into a failure. Of a stray word,
which no wait gives, nothing can be made. -/
theorem joins_read_words (self : Pid) (p : ProcessHandle) (h : p.pid ≠ self) (child : Pid)
    (w : BitVec 32) :
    (∃! n, Notice.Tells w n) ∧
    (Notice.Tells w .stray → ∀ strict, (p.join self strict).run.hearing child w =
      .abort "assertion failed: continued(status)") ∧
    (¬Notice.Tells w .stray → ∃ r : Bool → Except Failure Int,
      (∀ strict, ((p.join self strict).run.hearing child w).Finishes ∧
        (∀ hs a, ((p.join self strict).run.hearing child w).Does hs a → a = r strict) ∧
        Reading p child w strict (r strict)) ∧
      r true = nonZeroAsFailure (r false)) := by
  refine ⟨Notice.existsUnique_tells w, fun hstray strict => ?_, fun hstray => ?_⟩
  · rw [join_hearing h, WaitStatus.ofWord, if_pos (WaitStatus.isStray_iff.mpr hstray)]
    rfl
  · obtain ⟨n, hn⟩ := Notice.exists_tells w
    have hne : n ≠ .stray := by
      rintro rfl
      exact hstray hn
    refine ⟨fun strict => p.judged child strict n, fun strict => ?_, p.judged_strict child n⟩
    have hheard : (p.join self strict).run.hearing child w = .done (p.judged child strict n) ∨
        (p.join self strict).run.hearing child w =
          .note (p.ended (p.judged child strict n)) (.done (p.judged child strict n)) := by
      rw [join_hearing h, WaitStatus.ofWord_eq hn hne]
      unfold judged
      cases n.status? child with
      | none => exact .inl rfl
      | some status => exact .inr rfl
    refine ⟨?_, fun hs a hdoes => ?_, reading_judged hn hne p child strict⟩
    · obtain heq | heq := hheard <;> rw [heq] <;> trivial
    · obtain heq | heq := hheard <;> rw [heq] at hdoes
      · exact (Program.does_done.mp hdoes).2
      · obtain ⟨_, -, hdone⟩ := Program.does_note.mp hdoes
        exact (Program.does_done.mp hdone).2

theorem joins_read_words_of_seven : (4242 : Pid) ≠ 1 ∧ Notice.Tells 0x700#32 (.exited 7) ∧
    (∃ hs,
      ((join 1 ⟨4242, none⟩ true).run.hearing 4242 0x700#32).Does hs (.error (.nonZeroExit 7))) ∧
    ∀ hs a, ((join 1 ⟨4242, none⟩ true).run.hearing 4242 0x700#32).Does hs a →
      a = .error (.nonZeroExit 7) := by
  have hself : (⟨4242, none⟩ : ProcessHandle).pid ≠ 1 := by decide
  have htells : Notice.Tells 0x700#32 (.exited 7) := by simp [Notice.Tells]
  have hstray : ¬Notice.Tells 0x700#32 .stray := by simp [Notice.Tells]
  obtain ⟨-, -, hread⟩ := joins_read_words 1 ⟨4242, none⟩ hself 4242 0x700#32
  obtain ⟨r, hr, -⟩ := hread hstray
  obtain ⟨-, hvalue, hreading⟩ := hr true
  have hseven := (hreading.nonZeroExit_iff 7).mpr ⟨7, htells, rfl, by decide, rfl⟩
  exact ⟨hself, htells, ⟨_, .note (.done _)⟩, fun hs a hdoes => hseven ▸ hvalue hs a hdoes⟩

/-- A stray word is nothing that the join could report. -/
theorem stray_word_breaks_join :
    ¬∃ hs r, ((join 1 ⟨4242, none⟩ false).run.hearing 4242 0xff#32).Does hs r := by
  rintro ⟨hs, r, hdoes⟩
  rw [join_hearing (by decide)] at hdoes
  exact Program.does_abort hdoes

end ProcessHandle

end OwnedHandles
