import OwnedHandles.Proofs.Paths

namespace OwnedHandles.Kernel.Walk

variable {s : State} {follow follow' slashed slashed' : Bool} {links : Nat}
  {directory i : InodeId} {step : Bytes} {rest rest' l m : List Bytes} {p : Place}

def condensed : List Bytes → List Bytes
  | [] => []
  | step :: rest => if step = Route.dot ∧ rest ≠ [] then condensed rest else step :: condensed rest

@[simp] theorem condensed_nil : condensed [] = [] := rfl

theorem condensed_dot (h : rest ≠ []) : condensed (Route.dot :: rest) = condensed rest := by
  simp [condensed, h]

theorem condensed_step (h : ¬(step = Route.dot ∧ rest ≠ [])) :
    condensed (step :: rest) = step :: condensed rest := by
  rw [condensed, if_neg h]

@[simp] theorem condensed_eq_nil : condensed l = [] ↔ l = [] := by
  induction l with
  | nil => simp
  | cons step rest ih =>
    unfold condensed
    split
    · rename_i h
      simp [ih, h.2]
    · simp

theorem condensed_append (l m : List Bytes) :
    condensed (l ++ condensed m) = condensed (l ++ m) := by
  induction l with
  | nil =>
    induction m with
    | nil => rfl
    | cons step rest ih =>
      by_cases h : step = Route.dot ∧ rest ≠ []
      · obtain ⟨rfl, hrest⟩ := h
        simpa [condensed_dot hrest] using ih
      · have h' : ¬(step = Route.dot ∧ condensed rest ≠ []) := by simpa using h
        simpa [condensed_step h, condensed_step h'] using ih
  | cons step rest ih =>
    have hnil : rest ++ condensed m = [] ↔ rest ++ m = [] := by simp
    simp only [List.cons_append, condensed, ne_eq, hnil, ih]

theorem condensed_eq (l : List Bytes) : condensed l =
    l.filter (· ≠ Route.dot) ++ if l.getLast? = some Route.dot then [Route.dot] else [] := by
  induction l with
  | nil => rfl
  | cons step rest ih =>
    by_cases hrest : rest = []
    · subst hrest
      by_cases hdot : step = Route.dot <;> simp [condensed, hdot]
    · rw [List.getLast?_cons_of_ne_nil hrest]
      by_cases hdot : step = Route.dot <;> simp [condensed, hdot, hrest, ih]

section Walks

theorem go_dot_cons (h : rest ≠ []) : go s follow links directory slashed (Route.dot :: rest) =
    go s follow links directory slashed rest := by
  cases hsearch : search s directory with
  | ok found => exact go_dot hsearch
  | error e =>
    obtain ⟨step, rest', rfl⟩ := List.exists_cons_of_ne_nil h
    rw [go, go, hsearch]
    rfl

theorem go_step_congr (hnil : rest = [] ↔ rest' = [])
    (hrest : ∀ d, go s follow links d slashed rest = go s follow links d slashed rest')
    (htarget : ∀ n < links, ∀ d slashed m,
      go s follow n d slashed (m ++ rest) = go s follow n d slashed (m ++ rest')) :
    go s follow links directory slashed (step :: rest) =
      go s follow links directory slashed (step :: rest') := by
  rw [go, go]
  simp only [hnil]
  refine bind_congr fun found => ?_
  split
  · exact hrest _
  split
  · exact hrest _
  split
  · rfl
  split
  · rfl
  split
  · split
    · rfl
    · split
      · rfl
      · exact htarget _ (Nat.lt_succ_self _) _ _ _
  · split
    · rfl
    · exact hrest _

theorem go_condensed (links : Nat) (directory : InodeId) (slashed : Bool) (l : List Bytes) :
    go s follow links directory slashed (condensed l) = go s follow links directory slashed l := by
  induction links using Nat.strongRecOn generalizing directory slashed l with
  | _ links ih =>
    induction l generalizing directory with
    | nil => rfl
    | cons step rest ihrest =>
      by_cases h : step = Route.dot ∧ rest ≠ []
      · obtain ⟨rfl, hrest⟩ := h
        rw [condensed_dot hrest, go_dot_cons hrest, ihrest]
      · rw [condensed_step h]
        refine go_step_congr condensed_eq_nil ihrest fun n hn d slashed m => ?_
        rw [← ih n hn d slashed (m ++ condensed rest), condensed_append, ih n hn]

theorem go_congr (h : condensed l = condensed m) :
    go s follow links directory slashed l = go s follow links directory slashed m := by
  rw [← go_condensed, h, go_condensed]

end Walks

section Endings

def enter (s : State) (slashed : Bool) (p : Place) : Except Errno Place :=
  match p.inode with
  | none => .error .ENOENT
  | some i => (search s i).map fun _ => ⟨i, none, some i, slashed⟩

/-- A dot behind the steps enters what they lead to, with all links followed. -/
theorem go_append_dot : go s follow links directory slashed (l ++ [Route.dot]) =
    go s true links directory slashed' l >>= enter s slashed := by
  induction links, directory, slashed', l using go.induct s with
  | case1 links directory slashed' =>
    rw [List.nil_append, go, go]
    simp only [if_true, go]
    cases h : search s directory <;> simp [enter, h, bind, Except.bind, Except.map]
  | case2 links directory slashed' step rest hdot hdotdot hnext =>
    have hnil : rest ++ [Route.dot] ≠ [] := by simp
    rw [List.cons_append]
    cases hsearch : search s directory with
    | error e =>
      rw [go, go, hsearch]
      rfl
    | ok found =>
      by_cases hisdot : step = Route.dot
      · rw [hisdot, go_dot hsearch, go_dot hsearch, hdot]
      by_cases hisdotdot : step = Route.dotdot
      · rw [hisdotdot, go_dotdot hsearch, go_dotdot hsearch, hdotdot]
      by_cases hlong : nameLimit < step.length
      · rw [go, go, hsearch]
        simp [bind, Except.bind, hisdot, hisdotdot, hlong]
      have hnames : Names s directory step (found.2.lookup step) :=
        ⟨hisdot, hisdotdot, hlong, found.1, found.2, hsearch, rfl⟩
      cases hentry : found.2.lookup step with
      | none =>
        rw [hentry] at hnames
        rw [go_missing hnames, go_missing hnames, if_neg hnil]
        split <;> rfl
      | some i =>
        rw [hentry] at hnames
        have hi := hnext i
        by_cases hlink : IsLink s i
        · obtain ⟨target, htarget⟩ := hlink
          rw [go_link hnames htarget, go_link hnames htarget, if_neg fun h => hnil h.1,
            if_neg fun h => absurd h.2.1 (by decide)]
          cases links with
          | zero => rfl
          | succ links => simpa [htarget, hnil] using hi
        · rw [go_plain hnames hlink, go_plain hnames hlink, if_neg hnil]
          have hi : go s follow links i slashed (rest ++ [Route.dot]) =
              go s true links i slashed' rest >>= enter s slashed := by
            split at hi
            · exact (hlink ⟨_, ‹_›⟩).elim
            · exact hi
          by_cases hrest : rest = []
          · subst hrest
            rw [hi, go, if_pos rfl]
            rfl
          · rw [hi, if_neg hrest]

end Endings

end OwnedHandles.Kernel.Walk

namespace OwnedHandles.Route

variable {part path : Bytes} {b : UInt8}

theorem mem_splitFrom (hb : b ≠ slash) :
    (∃ x ∈ splitFrom part path, b ∈ x) ↔ b ∈ part ∨ b ∈ path := by
  induction path generalizing part with
  | nil => simp [splitFrom]
  | cons c rest ih =>
    unfold splitFrom
    split
    · rename_i hc
      simp [ih, hc, hb]
    · simp [ih, or_assoc, or_left_comm]

theorem splitFrom_head? (part path : Bytes) :
    (splitFrom part path).head? = some (part.reverse ++ path.takeWhile (· ≠ slash)) := by
  induction path generalizing part with
  | nil => simp [splitFrom]
  | cons c rest ih =>
    unfold splitFrom
    split
    · rename_i hc
      simp [hc]
    · rename_i hc
      simp [ih, hc]

theorem mem_steps : step ∈ (ofPath path).steps ↔ step ∈ split path ∧ step ≠ [] ∧ step ≠ dot := by
  simp [ofPath]

theorem zero_mem_iff : 0 ∈ path ↔ ∃ step ∈ (ofPath path).steps, 0 ∈ step := by
  have hslash : 0 ≠ slash := by decide
  have hparts : (∃ x ∈ split path, 0 ∈ x) ↔ 0 ∈ path :=
    (mem_splitFrom hslash).trans (by simp)
  rw [← hparts]
  refine exists_congr fun x => ⟨fun ⟨hx, hzero⟩ => ⟨mem_steps.mpr ⟨hx, ?_, ?_⟩, hzero⟩,
    fun ⟨hx, hzero⟩ => ⟨(mem_steps.mp hx).1, hzero⟩⟩
  · rintro rfl
    cases hzero
  · rintro rfl
    exact absurd hzero (by decide)

theorem ofPath_eq_nil : path = [] ↔ ofPath path = ⟨false, false, []⟩ := by
  constructor
  · rintro rfl
    rfl
  · intro h
    cases path with
    | nil => rfl
    | cons b rest =>
      have habsolute : b ≠ slash := by simpa [ofPath] using congrArg absolute h
      have hhead := splitFrom_head? [] (b :: rest)
      have hdotted : (split (b :: rest)).head? ≠ some dot := by
        simpa [ofPath, habsolute] using congrArg dotted h
      have hmem := mem_steps.mpr ⟨List.mem_of_head? hhead, by simp [habsolute], fun hdot =>
        hdotted (hhead.trans (congrArg some hdot))⟩
      rw [h] at hmem
      cases hmem

end OwnedHandles.Route

namespace OwnedHandles.Kernel.Walk

variable {s : State} {nameless nameless' : Prop} {follow follow' slashed slashed' : Bool}
  {i : InodeId} {pid : Pid} {p q : Bytes} {a b : Place} {x y : Except Errno Place}
  {found : InodeId × List (Bytes × InodeId)}

section Lookups

/-- Two lookups that come out the same or find the same file; where a name would matter, without
one. -/
inductive Agree (s : State) (nameless : Prop) (x y : Except Errno Place) : Prop
  | same (h : x = y)
  | found {u v j} (hx : x = .ok u) (hy : y = .ok v) (hu : existing s u = .ok j)
      (hv : existing s v = .ok j) (hnames : nameless → u.name = none ∧ v.name = none)

theorem Agree.weaken (h : Agree s nameless x y) (himp : nameless' → nameless) :
    Agree s nameless' x y := by
  cases h with
  | same h => exact .same h
  | found hx hy hu hv hnames => exact .found hx hy hu hv (hnames ∘ himp)

theorem Agree.symm (h : Agree s nameless x y) : Agree s nameless y x := by
  cases h with
  | same h => exact .same h.symm
  | found hx hy hu hv hnames => exact .found hy hx hv hu fun h => (hnames h).symm

theorem existing_of_search (h : search s i = .ok found) (ha : a.inode = some i) :
    existing s a = .ok i := by
  obtain ⟨parent, entries⟩ := found
  refine existing_eq_ok_iff.mpr ⟨ha, fun _ => ?_⟩
  simp [State.isDirectory, content_of_search h, Content.kind]

theorem enter_of_search (h : search s i = .ok found) (ha : a.inode = some i) :
    enter s slashed a = .ok ⟨i, none, some i, slashed⟩ := by
  simp [enter, ha, h, Except.map]

theorem enter_agree (x : Except Errno Place) :
    Agree s True (x >>= enter s slashed) (x >>= enter s slashed') := by
  cases x with
  | error e => exact .same rfl
  | ok a =>
    cases hi : a.inode with
    | none => exact .same (by simp [bind, Except.bind, enter, hi])
    | some i =>
      cases hsearch : search s i with
      | error e => exact .same (by simp [bind, Except.bind, enter, hi, hsearch, Except.map])
      | ok found =>
        exact .found (enter_of_search hsearch hi) (enter_of_search hsearch hi)
          (existing_of_search hsearch rfl) (existing_of_search hsearch rfl) fun _ => ⟨rfl, rfl⟩

theorem enter_slashed (x : Except Errno Place) :
    (do return { ← x >>= enter s slashed with slashed := slashed' }) = x >>= enter s slashed' := by
  cases x with
  | error e => rfl
  | ok a =>
    simp only [bind, Except.bind, enter]
    cases a.inode with
    | none => rfl
    | some i =>
      change Except.bind (Except.map _ (search s i)) _ = Except.map _ (search s i)
      cases search s i <;> rfl

theorem exists_of_enter (h : x >>= enter s slashed = .ok a) :
    ∃ b, x = .ok b ∧ b.inode = a.inode := by
  cases x with
  | error e => cases h
  | ok b =>
    refine ⟨b, rfl, ?_⟩
    simp only [bind, Except.bind, enter] at h
    split at h
    · cases h
    · rename_i i hi
      cases hsearch : search s i with
      | error e => simp [hsearch, Except.map] at h
      | ok found =>
        simp only [hsearch, Except.map, Except.ok.injEq] at h
        rw [hi, ← h]

end Lookups

section Routes

theorem filter_steps (path : Bytes) :
    (steps path).filter (· ≠ Route.dot) = (Route.ofPath path).steps := by
  simp [steps, Route.ofPath, List.filter_filter, and_comm]

theorem start_eq (directory : InodeId) (path : Bytes) :
    start directory path = if (Route.ofPath path).absolute then 0 else directory := by
  simp [start, Route.ofPath]

/-- How a path ends. A slash behind a dot makes no difference. -/
inductive Ending
  | name | slash | dot
  deriving DecidableEq, Repr

def ending (path : Bytes) : Ending :=
  if (steps path).getLast? = some Route.dot then .dot
  else if endsWithSlash path then .slash else .name

theorem ending_eq_dot : ending p = .dot ↔ (steps p).getLast? = some Route.dot := by
  unfold ending
  split
  · simp [*]
  · split <;> simp [*]

theorem endsWithSlash_iff (h : ending p ≠ .dot) : endsWithSlash p = true ↔ ending p = .slash := by
  unfold ending at h ⊢
  split at h
  · exact absurd rfl h
  · rename_i hdot
    rw [if_neg hdot]
    split <;> simp [*]

theorem condensed_steps (path : Bytes) : condensed (steps path) =
    (Route.ofPath path).steps ++ if ending path = .dot then [Route.dot] else [] := by
  simp only [condensed_eq, filter_steps, ending_eq_dot]

def landing (s : State) (pid : Pid) (slashed : Bool) (path : Bytes) : Except Errno Place := do
  check path
  let directory := ((s.process? pid).map Process.directory).getD 0
  go s true linkLimit (start directory path) slashed (Route.ofPath path).steps

theorem go_steps_of_dot (h : ending p = .dot) (slashed' : Bool) {links : Nat}
    {directory : InodeId} : go s follow links directory slashed (steps p) =
      go s true links directory slashed' (Route.ofPath p).steps >>= enter s slashed := by
  rw [← go_condensed, condensed_steps, if_pos h, go_append_dot]

theorem place_of_dot (h : ending p = .dot) (slashed : Bool) :
    place s pid follow p = landing s pid slashed p >>= enter s (endsWithSlash p) := by
  unfold place landing
  rw [bind_assoc]
  exact bind_congr fun _ => go_steps_of_dot h slashed

theorem place_of_not_dot (h : ending p ≠ .dot) :
    place s pid true p = landing s pid (endsWithSlash p) p := by
  unfold place landing
  refine bind_congr fun _ => ?_
  rw [← go_condensed, condensed_steps, if_neg h, List.append_nil]

theorem entry_of_dot (h : ending p = .dot) :
    entry s pid p = landing s pid false p >>= enter s (endsWithSlash p) := by
  unfold entry landing
  rw [bind_assoc]
  refine bind_congr fun _ => ?_
  simp only [go_steps_of_dot h false]
  exact enter_slashed _

end Routes

structure Spelled (p q : Bytes) : Prop where
  route : Route.ofPath p = Route.ofPath q
  long : p.length < pathLimit ↔ q.length < pathLimit

namespace Spelled

theorem symm (h : Spelled p q) : Spelled q p := ⟨h.route.symm, h.long.symm⟩

theorem check_eq (h : Spelled p q) : check p = check q := by
  have hzero : 0 ∈ p ↔ 0 ∈ q := by rw [Route.zero_mem_iff, h.route, ← Route.zero_mem_iff]
  have hnil : p = [] ↔ q = [] := by rw [Route.ofPath_eq_nil, h.route, ← Route.ofPath_eq_nil]
  have hlong := not_congr h.long
  simp only [Nat.not_lt] at hlong
  simp [check, hzero, hnil, hlong]

theorem start_eq (h : Spelled p q) (directory : InodeId) :
    start directory p = start directory q := by
  rw [Walk.start_eq, h.route, ← Walk.start_eq]

theorem landing_eq (h : Spelled p q) : landing s pid slashed p = landing s pid slashed q := by
  simp only [landing, h.check_eq, h.start_eq, h.route]

theorem go_eq (h : Spelled p q) (hending : ending p = ending q) {links : Nat}
    {directory : InodeId} : go s follow links directory slashed (steps p) =
      go s follow links directory slashed (steps q) :=
  go_congr (by rw [condensed_steps, condensed_steps, h.route, hending])

theorem slash_eq (hending : ending p = ending q) (hdot : ending p ≠ .dot) :
    endsWithSlash p = endsWithSlash q := by
  rw [Bool.eq_iff_iff, endsWithSlash_iff hdot, endsWithSlash_iff (hending ▸ hdot), hending]

theorem place_agree (h : Spelled p q) (hending : ending p = ending q) :
    Agree s True (place s pid follow p) (place s pid follow q) := by
  by_cases hdot : ending p = .dot
  · rw [place_of_dot hdot false, place_of_dot (hending ▸ hdot) false, h.landing_eq]
    exact enter_agree _
  · refine .same ?_
    simp only [place, h.check_eq, h.start_eq, h.go_eq hending, slash_eq hending hdot]

theorem entry_agree (h : Spelled p q) (hending : ending p = ending q) :
    Agree s True (entry s pid p) (entry s pid q) := by
  by_cases hdot : ending p = .dot
  · rw [entry_of_dot hdot, entry_of_dot (hending ▸ hdot), h.landing_eq]
    exact enter_agree _
  · refine .same ?_
    simp only [entry, h.check_eq, h.start_eq, h.go_eq hending, slash_eq hending hdot]

theorem place_entry_agree (h : Spelled p q) (hp : ending p = .dot) (hq : ending q = .dot) :
    Agree s True (place s pid follow p) (entry s pid q) := by
  rw [place_of_dot hp false, entry_of_dot hq, h.landing_eq]
  exact enter_agree _

end Spelled

theorem landing_enter (slashed slashed' : Bool) :
    landing s pid slashed p >>= enter s false = landing s pid slashed' p >>= enter s false := by
  unfold landing
  rw [bind_assoc, bind_assoc]
  have hdot (slashed : Bool) (directory : InodeId) :
      go s true linkLimit directory slashed (Route.ofPath p).steps >>= enter s false =
        go s true linkLimit directory false ((Route.ofPath p).steps ++ [Route.dot]) :=
    go_append_dot.symm
  exact bind_congr fun _ => (hdot slashed _).trans (hdot slashed' _).symm

theorem landing_of_find (h : find s pid true p = .ok i) (hsearch : search s i = .ok found)
    (slashed : Bool) : ∃ a, landing s pid slashed p = .ok a ∧ a.inode = some i := by
  obtain ⟨a, hplace, hexisting⟩ := find_eq_ok_iff.mp h
  have hi := (existing_eq_ok_iff.mp hexisting).1
  by_cases hdot : ending p = .dot
  · rw [place_of_dot hdot slashed] at hplace
    obtain ⟨b, hb, hsame⟩ := exists_of_enter hplace
    exact ⟨b, hb, hsame.trans hi⟩
  · rw [place_of_not_dot hdot] at hplace
    have henter : landing s pid slashed p >>= enter s false = .ok ⟨i, none, some i, false⟩ := by
      rw [landing_enter slashed (endsWithSlash p), hplace]
      exact enter_of_search hsearch hi
    obtain ⟨b, hb, hsame⟩ := exists_of_enter henter
    exact ⟨b, hb, hsame⟩

theorem place_of_landing (h : ∀ slashed, ∃ a, landing s pid slashed p = .ok a ∧ a.inode = some i)
    (hsearch : search s i = .ok found) :
    ∃ a, place s pid true p = .ok a ∧ existing s a = .ok i := by
  obtain ⟨a, hlanding, hi⟩ := h (endsWithSlash p)
  by_cases hdot : ending p = .dot
  · refine ⟨⟨i, none, some i, endsWithSlash p⟩, ?_, existing_of_search hsearch rfl⟩
    rw [place_of_dot hdot, hlanding]
    exact enter_of_search hsearch hi
  · exact ⟨a, (place_of_not_dot hdot).trans hlanding, existing_of_search hsearch hi⟩

theorem Spelled.directory_agree (h : Spelled p q) (hfind : find s pid true p = .ok i)
    (hsearch : search s i = .ok found) :
    Agree s False (place s pid true p) (place s pid true q) := by
  obtain ⟨a, hplace, hexisting⟩ := find_eq_ok_iff.mp hfind
  obtain ⟨b, hplace', hexisting'⟩ := place_of_landing (p := q) (fun slashed => by
    rw [← h.landing_eq]
    exact landing_of_find hfind hsearch slashed) hsearch
  exact .found hplace hplace' hexisting hexisting' False.elim

end OwnedHandles.Kernel.Walk
