import Mathlib.Tactic.ByContra
import OwnedHandles.Proofs.Inodes

namespace OwnedHandles.Kernel.Walk

def IsLink (s : State) (i : InodeId) : Prop := ∃ target, s.content i = .symlink target

structure Names (s : State) (directory : InodeId) (step : Bytes) (found : Option InodeId) :
    Prop where
  no_dot : step ≠ Route.dot
  no_dotdot : step ≠ Route.dotdot
  short : ¬nameLimit < step.length
  entry : ∃ parent entries, search s directory = .ok (parent, entries) ∧
    entries.lookup step = found

inductive Leads (s : State) (follow : Bool) : Nat → InodeId → Bool → List Bytes → Place → Prop
  | here {links directory slashed} :
      Leads s follow links directory slashed [] ⟨directory, none, some directory, slashed⟩
  | dot {links directory slashed rest p found} : search s directory = .ok found →
      Leads s follow links directory slashed rest p →
      Leads s follow links directory slashed (Route.dot :: rest) p
  | dotdot {links directory slashed rest p parent entries} :
      search s directory = .ok (parent, entries) → Leads s follow links parent slashed rest p →
      Leads s follow links directory slashed (Route.dotdot :: rest) p
  | missing {links directory slashed step} : Names s directory step none →
      Leads s follow links directory slashed [step] ⟨directory, some step, none, slashed⟩
  | last {links directory slashed step i} : Names s directory step (some i) →
      (IsLink s i → follow = false ∧ slashed = false) →
      Leads s follow links directory slashed [step] ⟨directory, some step, some i, slashed⟩
  | into {links directory slashed step rest p i} : Names s directory step (some i) →
      ¬IsLink s i → rest ≠ [] → Leads s follow links i slashed rest p →
      Leads s follow links directory slashed (step :: rest) p
  | through {links directory slashed step rest p i target} : Names s directory step (some i) →
      s.content i = .symlink target → ¬(rest = [] ∧ follow = false ∧ slashed = false) →
      Leads s follow links (start directory target)
        (slashed || (rest = [] && endsWithSlash target)) (steps target ++ rest) p →
      Leads s follow (links + 1) directory slashed (step :: rest) p

variable {s t : State} {follow slashed : Bool} {links : Nat} {directory parent i j : InodeId}
  {step target name : Bytes} {rest path : List Bytes} {p : Place}
  {entries : List (Bytes × InodeId)}

theorem go_dot (hsearch : search s directory = .ok (parent, entries)) :
    go s follow links directory slashed (Route.dot :: rest) =
      go s follow links directory slashed rest := by
  rw [go, hsearch]
  rfl

theorem go_dotdot (hsearch : search s directory = .ok (parent, entries)) :
    go s follow links directory slashed (Route.dotdot :: rest) =
      go s follow links parent slashed rest := by
  rw [go, hsearch]
  rfl

theorem go_missing (h : Names s directory step none) :
    go s follow links directory slashed (step :: rest) =
      if rest = [] then .ok ⟨directory, some step, none, slashed⟩ else .error .ENOENT := by
  obtain ⟨hdot, hdotdot, hshort, parent, entries, hsearch, hentry⟩ := h
  rw [go, hsearch]
  simp [bind, Except.bind, hdot, hdotdot, hshort, hentry]

theorem go_plain (h : Names s directory step (some i)) (hi : ¬IsLink s i) :
    go s follow links directory slashed (step :: rest) =
      if rest = [] then .ok ⟨directory, some step, some i, slashed⟩
      else go s follow links i slashed rest := by
  obtain ⟨hdot, hdotdot, hshort, parent, entries, hsearch, hentry⟩ := h
  rw [go, hsearch]
  simp only [bind, Except.bind, hdot, hdotdot, hshort, hentry, if_false]
  split
  · exact (hi ⟨_, ‹_›⟩).elim
  · rfl

theorem go_link (h : Names s directory step (some i)) (hi : s.content i = .symlink target) :
    go s follow links directory slashed (step :: rest) =
      if rest = [] ∧ follow = false ∧ slashed = false then
        .ok ⟨directory, some step, some i, slashed⟩
      else match links with
        | 0 => .error .ELOOP
        | links + 1 => go s follow links (start directory target)
            (slashed || (rest = [] && endsWithSlash target)) (steps target ++ rest) := by
  obtain ⟨hdot, hdotdot, hshort, parent, entries, hsearch, hentry⟩ := h
  rw [go, hsearch]
  cases links <;> simp [bind, Except.bind, hdot, hdotdot, hshort, hentry, hi]

theorem search_of_go (h : go s follow links directory slashed (step :: rest) = .ok p) :
    ∃ parent entries, search s directory = .ok (parent, entries) ∧
      (step = Route.dot ∨ step = Route.dotdot ∨ Names s directory step (entries.lookup step)) := by
  rw [go] at h
  cases hsearch : search s directory with
  | error e => simp [hsearch, bind, Except.bind] at h
  | ok found =>
    obtain ⟨parent, entries⟩ := found
    refine ⟨parent, entries, rfl, ?_⟩
    by_contra hno
    simp only [not_or] at hno
    obtain ⟨hdot, hdotdot, hnames⟩ := hno
    have hlong : nameLimit < step.length := by
      by_contra hshort
      exact hnames ⟨hdot, hdotdot, hshort, parent, entries, hsearch, rfl⟩
    simp [hsearch, bind, Except.bind, hdot, hdotdot, hlong] at h

theorem leads_of_go (h : go s follow links directory slashed path = .ok p) :
    Leads s follow links directory slashed path p := by
  induction links, directory, slashed, path using go.induct s generalizing p with
  | case1 links directory slashed =>
    rw [go] at h
    obtain rfl := Except.ok.inj h
    exact .here
  | case2 links directory slashed step rest hdot hdotdot hnext =>
    obtain ⟨parent, entries, hsearch, rfl | rfl | hnames⟩ := search_of_go h
    · rw [go_dot hsearch] at h
      exact .dot hsearch (hdot h)
    · rw [go_dotdot hsearch] at h
      exact .dotdot hsearch (hdotdot parent h)
    cases hentry : entries.lookup step with
    | none =>
      rw [hentry] at hnames
      rw [go_missing hnames] at h
      split at h
      · subst rest
        obtain rfl := Except.ok.inj h
        exact .missing hnames
      · cases h
    | some i =>
      rw [hentry] at hnames
      have hi := hnext i
      by_cases hlink : IsLink s i
      · obtain ⟨target, htarget⟩ := hlink
        rw [go_link hnames htarget] at h
        split at h
        · rename_i hlast
          obtain ⟨rfl, hfollow⟩ := hlast
          obtain rfl := Except.ok.inj h
          exact .last hnames fun _ => hfollow
        · cases links with
          | zero => cases h
          | succ links =>
            simp only [htarget] at hi
            exact .through hnames htarget ‹_› (hi h)
      · rw [go_plain hnames hlink] at h
        split at h
        · subst rest
          obtain rfl := Except.ok.inj h
          exact .last hnames fun hl => (hlink hl).elim
        · refine .into hnames hlink ‹_› ?_
          split at hi
          · exact (hlink ⟨_, ‹_›⟩).elim
          · exact hi h

theorem Leads.go_eq (h : Leads s follow links directory slashed path p) :
    go s follow links directory slashed path = .ok p := by
  induction h with
  | here => rw [go]
  | dot hsearch _ ih => rw [go_dot hsearch, ih]
  | dotdot hsearch _ ih => rw [go_dotdot hsearch, ih]
  | missing hnames => rw [go_missing hnames, if_pos rfl]
  | @last links directory slashed step i hnames hlink =>
    by_cases hi : IsLink s i
    · obtain ⟨target, htarget⟩ := hi
      rw [go_link hnames htarget, if_pos ⟨rfl, hlink ⟨target, htarget⟩⟩]
    · rw [go_plain hnames hi, if_pos rfl]
  | into hnames hlink hrest _ ih => rw [go_plain hnames hlink, if_neg hrest, ih]
  | through hnames htarget hmust _ ih =>
    rw [go_link hnames htarget, if_neg hmust]
    exact ih

theorem go_eq_ok_iff : go s follow links directory slashed path = .ok p ↔
    Leads s follow links directory slashed path p :=
  ⟨leads_of_go, Leads.go_eq⟩

section Files

theorem search_of_files (h : t.files = s.files) (i : InodeId) : search t i = search s i := by
  have hi := State.inode_of_files h i
  unfold search
  generalize t.inode i = n at hi ⊢
  generalize s.inode i = m at hi ⊢
  obtain ⟨c, mode, group⟩ := n
  obtain ⟨c', mode', group'⟩ := m
  cases c <;> cases c' <;> simp_all [Inode.lasting, Content.lasting]

theorem isLink_of_files (h : t.files = s.files) : IsLink t i ↔ IsLink s i :=
  ⟨fun ⟨target, hi⟩ => ⟨target, (State.content_of_files h.symm (by simp [hi])).trans hi⟩,
    fun ⟨target, hi⟩ => ⟨target, (State.content_of_files h (by simp [hi])).trans hi⟩⟩

theorem Names.of_files {found : Option InodeId} (h : t.files = s.files)
    (hnames : Names s directory step found) : Names t directory step found :=
  { hnames with
    entry := by
      rw [search_of_files h]
      exact hnames.entry }

theorem Leads.of_files (h : t.files = s.files)
    (hleads : Leads s follow links directory slashed path p) :
    Leads t follow links directory slashed path p := by
  induction hleads with
  | here => exact .here
  | dot hsearch _ ih => exact .dot ((search_of_files h _).trans hsearch) ih
  | dotdot hsearch _ ih => exact .dotdot ((search_of_files h _).trans hsearch) ih
  | missing hnames => exact .missing (hnames.of_files h)
  | last hnames hlink => exact .last (hnames.of_files h) fun hi => hlink ((isLink_of_files h).mp hi)
  | into hnames hlink hrest _ ih =>
    exact .into (hnames.of_files h) (fun hi => hlink ((isLink_of_files h).mp hi)) hrest ih
  | through hnames htarget hmust _ ih =>
    have htarget' := (State.content_of_files h (by simp [htarget])).trans htarget
    exact .through (hnames.of_files h) htarget' hmust ih

end Files

theorem Leads.following (h : Leads s false links directory slashed path p)
    (hp : ∀ i, p.inode = some i → ¬IsLink s i) :
    Leads s true links directory slashed path p := by
  induction h with
  | here => exact .here
  | dot hsearch _ ih => exact .dot hsearch (ih hp)
  | dotdot hsearch _ ih => exact .dotdot hsearch (ih hp)
  | missing hnames => exact .missing hnames
  | last hnames => exact .last hnames fun hi => (hp _ rfl hi).elim
  | into hnames hlink hrest _ ih => exact .into hnames hlink hrest (ih hp)
  | through hnames htarget _ _ ih => exact .through hnames htarget (fun h => nomatch h.2.1) (ih hp)

theorem Leads.missing_name (h : Leads s follow links directory slashed path p)
    (hp : p.inode = none) : ∃ name, p.name = some name ∧ Names s p.directory name none := by
  induction h with
  | here => cases hp
  | dot _ _ ih => exact ih hp
  | dotdot _ _ ih => exact ih hp
  | missing hnames => exact ⟨_, rfl, hnames⟩
  | last => cases hp
  | into _ _ _ _ ih => exact ih hp
  | through _ _ _ _ ih => exact ih hp

section Made

variable {n : Inode}

theorem content_of_search (h : search s i = .ok (parent, entries)) :
    s.content i = .directory parent entries := by
  unfold search at h
  unfold State.content
  split at h
  · rename_i hi
    rw [hi]
    split at h
    · obtain ⟨rfl, rfl⟩ := Except.ok.inj h
      rfl
    · cases h
  · cases h

theorem IsLink.lt_size (h : IsLink s i) : i < s.inodes.size := by
  obtain ⟨target, hi⟩ := h
  by_contra hsize
  have hdefault : s.inode i = default := by simp [State.inode, Nat.not_lt.mp hsize]
  rw [State.content, hdefault] at hi
  cases hi

theorem content_addNamed (h : s.content directory = .directory parent entries)
    (hi : s.content i = .symlink target) :
    (s.addNamed directory name n).1.content i = .symlink target := by
  have hd : i ≠ directory := by
    rintro rfl
    cases h.symm.trans hi
  unfold State.content
  rw [State.inode_addNamed h, if_neg (Nat.ne_of_lt (IsLink.lt_size ⟨_, hi⟩)), if_neg hd]
  exact hi

theorem isLink_addNamed (h : s.content directory = .directory parent entries)
    (hn : ∀ target, n.content ≠ .symlink target) (hi : IsLink (s.addNamed directory name n).1 i) :
    IsLink s i := by
  obtain ⟨target, hi⟩ := hi
  unfold State.content at hi
  rw [State.inode_addNamed h] at hi
  split at hi
  · exact (hn target hi).elim
  · split at hi
    · cases hi
    · exact ⟨target, hi⟩

theorem search_addNamed (h : s.content directory = .directory parent entries)
    {up : InodeId} {old : List (Bytes × InodeId)} (hi : search s i = .ok (up, old)) :
    search (s.addNamed directory name n).1 i = .ok (up,
      if i = directory then (name, s.inodes.size) :: old.filter fun e => e.1 ≠ name else old) := by
  have hcontent := content_of_search hi
  have hsize : i ≠ s.inodes.size := Nat.ne_of_lt (State.lt_size_of_directory hcontent)
  unfold search at hi ⊢
  rw [State.inode_addNamed h, if_neg hsize]
  by_cases hd : i = directory
  · subst hd
    obtain ⟨rfl, rfl⟩ := Content.directory.inj (hcontent.symm.trans h)
    have hinode : s.inode i = ⟨.directory up old, s.mode i, s.group i⟩ :=
      congrArg (Inode.mk · (s.mode i) (s.group i)) h
    rw [hinode] at hi
    simp only [if_true] at hi ⊢
    rw [hinode]
    split at hi
    · rename_i hmode
      simp [hmode]
    · cases hi
  · simp only [if_neg hd]
    exact hi

theorem lookup_filter_ne {step : Bytes} (hne : step ≠ name) (l : List (Bytes × InodeId)) :
    (l.filter fun e => e.1 ≠ name).lookup step = l.lookup step := by
  induction l with
  | nil => rfl
  | cons e l ih =>
    obtain ⟨k, i⟩ := e
    by_cases hk : k = name
    · have hstep : (step == k) = false := by simpa [hk] using hne
      rw [List.filter_cons_of_neg (by simpa using hk), ih, List.lookup_cons, hstep]
    · rw [List.filter_cons_of_pos (by simpa using hk), List.lookup_cons, List.lookup_cons, ih]

theorem Names.addNamed (h : s.content directory = .directory parent entries)
    (hnone : Names s directory name none) (hi : Names s j step (some i)) :
    Names (s.addNamed directory name n).1 j step (some i) := by
  obtain ⟨hdot, hdotdot, hshort, up, old, hsearch, hentry⟩ := hi
  refine ⟨hdot, hdotdot, hshort, up, _, search_addNamed h hsearch, ?_⟩
  split
  · subst j
    obtain ⟨-, -, -, up', old', hsearch', hentry'⟩ := hnone
    obtain ⟨rfl, rfl⟩ := Prod.mk.inj (Except.ok.inj (hsearch.symm.trans hsearch'))
    have hne : step ≠ name := by
      rintro rfl
      cases hentry.symm.trans hentry'
    have hstep : (step == name) = false := by simpa using hne
    rw [List.lookup_cons, hstep, lookup_filter_ne hne]
    exact hentry
  · exact hentry

theorem Leads.addNamed (hleads : Leads s follow links i slashed path p)
    (hp : p.inode = none) (hname : p.name = some name)
    (hn : ∀ target, n.content ≠ .symlink target) :
    Leads (s.addNamed p.directory name n).1 follow links i slashed path
      { p with inode := some s.inodes.size } := by
  obtain ⟨name', hname', hnone⟩ := hleads.missing_name hp
  obtain rfl := Option.some.inj (hname.symm.trans hname')
  obtain ⟨up, old, hsearch, -⟩ := hnone.entry
  have hd := content_of_search hsearch
  induction hleads with
  | here => cases hp
  | dot hi _ ih => exact .dot (search_addNamed hd hi) (ih hp hname hname' hnone hsearch hd)
  | dotdot hi _ ih => exact .dotdot (search_addNamed hd hi) (ih hp hname hname' hnone hsearch hd)
  | missing hnames =>
    obtain rfl := Option.some.inj hname
    refine .last ⟨hnone.no_dot, hnone.no_dotdot, hnone.short, up, _, search_addNamed hd hsearch, ?_⟩
      fun hi => ?_
    · simp
    · exact absurd (isLink_addNamed hd hn hi).lt_size (Nat.lt_irrefl _)
  | last => cases hp
  | into hnames hlink hrest _ ih =>
    exact .into (hnone.addNamed hd hnames) (fun hi => hlink (isLink_addNamed hd hn hi)) hrest
      (ih hp hname hname' hnone hsearch hd)
  | through hnames htarget hmust _ ih =>
    exact .through (hnone.addNamed hd hnames) (content_addNamed hd htarget) hmust
      (ih hp hname hname' hnone hsearch hd)

end Made

section Finding

variable {pid : Pid} {bytes : Bytes}

theorem place_eq_ok_iff : place s pid follow bytes = .ok p ↔ check bytes = .ok () ∧
    Leads s follow linkLimit (start (((s.process? pid).map Process.directory).getD 0) bytes)
      (endsWithSlash bytes) (steps bytes) p := by
  unfold place
  cases check bytes with
  | error e => simp [bind, Except.bind]
  | ok u => simp [bind, Except.bind, go_eq_ok_iff]

theorem find_eq_ok_iff : find s pid follow bytes = .ok i ↔
    ∃ p, place s pid follow bytes = .ok p ∧ existing s p = .ok i := by
  unfold find
  cases place s pid follow bytes with
  | error e => simp [bind, Except.bind]
  | ok p => simp [bind, Except.bind]

theorem existing_eq_ok_iff : existing s p = .ok i ↔
    p.inode = some i ∧ (p.slashed = true → s.isDirectory i = true) := by
  unfold existing
  cases p.inode with
  | none => simp
  | some j =>
    simp only [Bool.not_eq_true', Option.some.injEq]
    split
    · rename_i h
      refine ⟨nofun, ?_⟩
      rintro ⟨rfl, hdirectory⟩
      exact absurd (h.2.symm.trans (hdirectory h.1)) nofun
    · rename_i h
      rw [Except.ok.injEq]
      refine ⟨?_, And.left⟩
      rintro rfl
      exact ⟨rfl, fun hslashed => by simpa using fun hno => h ⟨hslashed, hno⟩⟩

theorem isDirectory_of_files (h : t.files = s.files) (i : InodeId) :
    t.isDirectory i = s.isDirectory i := by
  have hlasting := congrArg Inode.content (State.inode_of_files h i)
  unfold State.isDirectory State.content
  cases hc : (t.inode i).content <;> cases hc' : (s.inode i).content <;>
    simp_all [Inode.lasting, Content.lasting, Content.kind]

theorem place_of_files (h : t.files = s.files) (hsame : s.SameProcesses t)
    (hp : place s pid follow bytes = .ok p) : place t pid follow bytes = .ok p := by
  obtain ⟨hcheck, hleads⟩ := place_eq_ok_iff.mp hp
  refine place_eq_ok_iff.mpr ⟨hcheck, ?_⟩
  rw [hsame.directory]
  exact hleads.of_files h

theorem find_of_files (h : t.files = s.files) (hsame : s.SameProcesses t)
    (hi : find s pid follow bytes = .ok i) : find t pid follow bytes = .ok i := by
  obtain ⟨p, hp, hexisting⟩ := find_eq_ok_iff.mp hi
  refine find_eq_ok_iff.mpr ⟨p, place_of_files h hsame hp, ?_⟩
  obtain ⟨hinode, hdirectory⟩ := existing_eq_ok_iff.mp hexisting
  exact existing_eq_ok_iff.mpr ⟨hinode, fun hs => (isDirectory_of_files h i).trans (hdirectory hs)⟩

theorem place_following (h : place s pid false bytes = .ok p)
    (hp : ∀ i, p.inode = some i → ¬IsLink s i) : place s pid true bytes = .ok p := by
  obtain ⟨hcheck, hleads⟩ := place_eq_ok_iff.mp h
  exact place_eq_ok_iff.mpr ⟨hcheck, hleads.following hp⟩

theorem find_addNamed {n : Inode} (h : place s pid follow bytes = .ok p) (hnone : p.inode = none)
    (hname : p.name = some name) (hslashed : p.slashed = false)
    (hn : ∀ target, n.content ≠ .symlink target)
    (hfiles : t.files = (s.addNamed p.directory name n).1.files)
    (hsame : (s.addNamed p.directory name n).1.SameProcesses t) :
    find t pid follow bytes = .ok s.inodes.size := by
  obtain ⟨hcheck, hleads⟩ := place_eq_ok_iff.mp h
  have hmade : place (s.addNamed p.directory name n).1 pid follow bytes =
      .ok { p with inode := some s.inodes.size } := by
    refine place_eq_ok_iff.mpr ⟨hcheck, ?_⟩
    have hprocesses : (s.addNamed p.directory name n).1.process? pid = s.process? pid := by
      obtain ⟨name', -, hnames⟩ := hleads.missing_name hnone
      obtain ⟨up, old, hsearch, -⟩ := hnames.entry
      rw [State.addNamed_eq (content_of_search hsearch)]
      rfl
    rw [hprocesses]
    exact hleads.addNamed hnone hname hn
  refine find_of_files hfiles hsame (find_eq_ok_iff.mpr ⟨_, hmade, ?_⟩)
  exact existing_eq_ok_iff.mpr ⟨rfl, fun hs => absurd (hslashed.symm.trans hs) nofun⟩

end Finding

end OwnedHandles.Kernel.Walk
