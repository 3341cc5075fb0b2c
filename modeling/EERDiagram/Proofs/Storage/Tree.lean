import EERDiagram.Storage.Tree
import Mathlib.Data.List.Induction

/-! Changes of a tree. A write changes the entry at one place; making directories fills in the
missing places on a way and fails exactly when a file stands on it. No file is lost by either. -/
namespace EERDiagram.Tree

variable {t after : Tree} {place other : List String} {path : Path} {names : List String}

/-- Both trees have the same files with the same bytes. -/
def SameFiles (t after : Tree) : Prop := ∀ place, after.file? place = t.file? place

theorem SameFiles.refl (t : Tree) : SameFiles t t := fun _ => rfl

theorem SameFiles.trans {middle : Tree} (first : SameFiles t middle)
    (second : SameFiles middle after) : SameFiles t after :=
  fun place => (second place).trans (first place)

theorem file?_eq_some_iff {bytes : List UInt8} :
    t.file? place = some bytes ↔ t.entry? place = some (.file bytes) := by
  rw [file?]
  split
  next found => simp [found]
  next none =>
    simp only [reduceCtorEq, false_iff]
    exact none bytes

theorem entry?_put_other (e : Entry) (apart : other ≠ place) :
    Tree.entry? (t.put place e) other = t.entry? other := by
  have kept : ∀ entries, (put.go place e entries).lookup other = entries.lookup other := by
    intro entries
    induction entries with
    | nil => simp [put.go, List.lookup_cons, beq_eq_false_iff_ne.mpr apart]
    | cons head rest ih =>
      obtain ⟨key, old⟩ := head
      rw [put.go]
      split
      next same =>
        subst same
        simp only [List.lookup_cons, beq_eq_false_iff_ne.mpr apart]
      next => simp only [List.lookup_cons, ih]
  simp only [ entry?, put, kept]

theorem entry?_put_same (e : Entry) (below : place ≠ []) :
    Tree.entry? (t.put place e) place = some e := by
  have found : ∀ entries, (put.go place e entries).lookup place = some e := by
    intro entries
    induction entries with
    | nil => simp [put.go]
    | cons head rest ih =>
      obtain ⟨key, old⟩ := head
      rw [put.go]
      split
      next => simp
      next apart => simp only [List.lookup_cons, beq_eq_false_iff_ne.mpr (Ne.symm apart), ih]
  simp only [ entry?, below, if_false, put, found]

theorem ne_root_of_entry (missing : t.entry? place ≠ some .directory) : place ≠ [] := by
  rintro rfl
  exact missing rfl

/-- A directory put where there is no file hides none. -/
theorem sameFiles_put_directory (missing : t.entry? place = none) :
    SameFiles t (t.put place .directory) := by
  intro other
  by_cases same : other = place
  · subst same
    have below := ne_root_of_entry (t := t) (by rw [missing]; nofun : t.entry? other ≠ some .directory)
    rw [file?, file?, entry?_put_same _ below, missing]
  · rw [file?, file?, entry?_put_other _ same]

/-- The place that paths with a start begin at. -/
def origin (t : Tree) : Path.Start → List String
  | .here => t.workingDirectory
  | _ => []

theorem origin_congr (same : after.workingDirectory = t.workingDirectory) (start : Path.Start) :
    after.origin start = t.origin start := by
  cases start with
  | here => exact same
  | root | doubleRoot => rfl

theorem locate_eq (t : Tree) (path : Path) :
    t.locate path = t.follow (t.origin path.start) path.names := rfl

theorem parent_concat (start : Path.Start) (names : List String) (name : String) :
    Path.parent ⟨start, names ++ [name]⟩ = ⟨start, names⟩ := by
  simp [Path.parent]

def next (place : List String) (name : String) : List String :=
  if name = ".." then place.dropLast else place ++ [name]

/-- The places that names lead over, the first and the last one included. -/
def way (place : List String) : List String → List (List String)
  | [] => [place]
  | name :: rest => place :: way (next place name) rest

/-- The place that names lead to. -/
def target (place : List String) (names : List String) : List String := names.foldl next place

theorem way_concat (place names : List String) (name : String) :
    way place (names ++ [name]) = way place names ++ [next (target place names) name] := by
  induction names generalizing place with
  | nil => rfl
  | cons first rest ih => rw [List.cons_append, way, ih]; rfl

theorem target_concat (place names : List String) (name : String) :
    target place (names ++ [name]) = next (target place names) name :=
  List.foldl_append

theorem target_mem_way (place names : List String) : target place names ∈ way place names := by
  induction names generalizing place with
  | nil => exact List.mem_singleton_self place
  | cons first rest ih => exact List.mem_cons_of_mem _ (ih (next place first))

theorem follow_cons (t : Tree) (place : List String) (name : String) (rest : List String) :
    t.follow place (name :: rest) = match t.entry? place with
      | some .directory => t.follow (next place name) rest
      | some (.file _) => .error .notDirectory
      | none => .error .notFound := rfl

theorem follow_concat (t : Tree) (place names : List String) (name : String) :
    t.follow place (names ++ [name]) = match t.follow place names with
      | .error fault => .error fault
      | .ok reached => t.follow reached [name] := by
  induction names generalizing place with
  | nil => rfl
  | cons first rest ih =>
    rw [List.cons_append, follow_cons, follow_cons]
    cases t.entry? place with
    | none => rfl
    | some e =>
      cases e with
      | file bytes => rfl
      | directory => exact ih (next place first)

theorem follow_eq_ok (found : t.follow place names = .ok reached) :
    reached = target place names := by
  induction names generalizing place with
  | nil => exact (Except.ok.inj found).symm
  | cons first rest ih =>
    rw [follow_cons] at found
    split at found
    next => exact ih found
    next => contradiction
    next => contradiction

/-- Directories lead on to the end of the way. -/
theorem follow_of_directories (clear : ∀ p ∈ way place names, t.entry? p = some .directory) :
    t.follow place names = .ok (target place names) := by
  induction names generalizing place with
  | nil => rfl
  | cons first rest ih =>
    rw [follow_cons, clear place List.mem_cons_self]
    exact ih fun p member => clear p (List.mem_cons_of_mem _ member)

theorem locate_below {start : Path.Start}
    (clear : ∀ p ∈ way (t.origin start) names, t.entry? p = some .directory) (name : String) :
    t.locate ⟨start, names ++ [name]⟩ = .ok (next (target (t.origin start) names) name) := by
  have reached := follow_of_directories clear
  have last := clear _ (target_mem_way (t.origin start) names)
  simp only [locate_eq, follow_concat, reached, follow_cons, last]
  rfl

/-- What stops a path is a file on the way, or a place where there is nothing. -/
theorem follow_eq_error (stopped : t.follow place names = .error fault) :
    fault = .notFound ∨
      fault = .notDirectory ∧ ∃ p ∈ way place names, (t.file? p).isSome = true := by
  induction names generalizing place with
  | nil => contradiction
  | cons first rest ih =>
    rw [follow_cons] at stopped
    split at stopped
    next =>
      rcases ih stopped with missing | ⟨stops, p, member, file⟩
      · exact .inl missing
      · exact .inr ⟨stops, p, List.mem_cons_of_mem _ member, file⟩
    next bytes found =>
      obtain rfl := Except.error.inj stopped
      refine .inr ⟨rfl, place, List.mem_cons_self, ?_⟩
      rw [file?_eq_some_iff.mpr found]
      rfl
    next => exact .inl (Except.error.inj stopped).symm

theorem follow_mono (kept : ∀ p, t.entry? p = some .directory → after.entry? p = some .directory)
    (found : t.follow place names = .ok reached) : after.follow place names = .ok reached := by
  induction names generalizing place with
  | nil => exact found
  | cons first rest ih =>
    rw [follow_cons] at found ⊢
    split at found
    next directory => rw [kept place directory]; exact ih found
    next => contradiction
    next => contradiction

theorem directories_of_follow (found : t.follow place (names ++ [name]) = .ok reached) :
    ∀ p ∈ way place names, t.entry? p = some .directory := by
  induction names generalizing place with
  | nil =>
    intro p member
    obtain rfl := List.mem_singleton.mp member
    rw [List.nil_append, follow_cons] at found
    split at found
    next directory => exact directory
    next => contradiction
    next => contradiction
  | cons first rest ih =>
    rw [List.cons_append, follow_cons] at found
    split at found
    next directory =>
      intro p member
      rcases List.mem_cons.mp member with rfl | later
      · exact directory
      · exact ih found p later
    next => contradiction
    next => contradiction

/-- What making the directories at some places does: it fails exactly when one of the places has a
file, and when it does not fail all of them are directories and nothing else is changed. -/
structure Made (t : Tree) (places : List (List String)) (result : Except StorageError Unit)
    (after : Tree) : Prop where
  files : SameFiles t after
  workingDirectory : after.workingDirectory = t.workingDirectory
  fails : (∃ e, result = .error e) ↔ ∃ p ∈ places, (t.file? p).isSome = true
  entries : result = .ok () → ∀ p,
    after.entry? p = if p ∈ places then some .directory else t.entry? p

theorem Made.of_directories {places : List (List String)}
    (directories : ∀ p ∈ places, t.entry? p = some .directory) : Made t places (.ok ()) t where
  files := SameFiles.refl t
  workingDirectory := rfl
  fails := by
    simp only [reduceCtorEq, exists_false, false_iff]
    rintro ⟨p, member, file⟩
    simp [file?, directories p member] at file
  entries := by
    intro _ p
    split
    next member => exact directories p member
    next => rfl

theorem Made.concat {places : List (List String)} {middle : Tree} {result : Except StorageError Unit}
    (first : Made t places (.ok ()) middle) (last : Made middle [place] result after) :
    Made t (places ++ [place]) result after where
  files := first.files.trans last.files
  workingDirectory := last.workingDirectory.trans first.workingDirectory
  fails := by
    have clear := first.fails
    simp only [reduceCtorEq, exists_false, false_iff] at clear
    rw [last.fails]
    simp only [List.mem_singleton, exists_eq_left, first.files place, List.mem_append, or_and_right,
      exists_or, clear, false_or]
  entries := by
    intro done p
    rw [last.entries done, first.entries rfl]
    by_cases same : p = place <;> simp [same]

theorem Made.concat_of_error {places : List (List String)} (made : Made t places (.error e) after) :
    Made t (places ++ [place]) (.error e) after where
  files := made.files
  workingDirectory := made.workingDirectory
  fails := by
    obtain ⟨p, member, file⟩ := made.fails.mp ⟨e, rfl⟩
    exact ⟨fun _ => ⟨p, List.mem_append_left _ member, file⟩, fun _ => ⟨e, rfl⟩⟩
  entries := fun done => nomatch done

def arrive (path : Path) : StateM Tree (Except StorageError Unit) := do
  Storage.settle path (← Storage.makeDirectory path)

theorem run_arrive (located : t.locate path = .ok place) :
    (arrive path).run t = match t.entry? place with
      | none => (.ok (), t.put place .directory)
      | some .directory => (.ok (), t)
      | some (.file _) => (.error ⟨.exists, path⟩, t) := by
  cases found : t.entry? place with
  | none =>
    simp only [arrive, Storage.makeDirectory, change, makeDirectory, located, found, StateT.run,
      bind, StateT.bind]
    rfl
  | some e =>
    cases e <;>
      simp only [arrive, Storage.makeDirectory, change, makeDirectory, located, found, StateT.run,
        bind, StateT.bind, Storage.settle, Storage.kind?, kind?] <;> rfl

theorem made_arrive (located : t.locate path = .ok place) :
    Made t [place] ((arrive path).run t).1 ((arrive path).run t).2 := by
  rw [run_arrive located]
  cases found : t.entry? place with
  | none =>
    have below := ne_root_of_entry (t := t) (by rw [found]; nofun : t.entry? place ≠ some .directory)
    refine ⟨sameFiles_put_directory found, rfl, by simp [file?, found], fun _ p => ?_⟩
    by_cases same : p = place
    · simp [same, entry?_put_same _ below]
    · simp [same, entry?_put_other _ same]
  | some e =>
    cases e with
    | directory => exact .of_directories (by simp [found])
    | file bytes => exact ⟨SameFiles.refl t, rfl, by simp [file?, found], fun done => nomatch done⟩

theorem makeDirectories_of_located (located : t.locate path = .ok place) :
    (Storage.makeDirectories path : StateM Tree _).run t = (arrive path).run t := by
  rw [Storage.makeDirectories, arrive]
  cases found : t.entry? place <;>
    simp [Storage.makeDirectory, change, makeDirectory, located, found, Storage.settle, StateT.run,
      bind, StateT.bind, pure]

theorem makeDirectories_of_stopped (stopped : t.locate path = .error .notDirectory) :
    (Storage.makeDirectories path : StateM Tree _).run t = (.error ⟨.notDirectory, path⟩, t) := by
  rw [Storage.makeDirectories]
  simp only [Storage.makeDirectory, change, makeDirectory, stopped, StateT.run, bind, StateT.bind,
    reduceCtorEq, false_and, dite_false, Storage.settle, Storage.kind?, kind?]
  rfl

/-- A missing directory is made after those above it. -/
theorem makeDirectories_of_missing (missing : t.locate path = .error .notFound)
    (named : path.names ≠ []) :
    (Storage.makeDirectories path : StateM Tree _).run t =
      match (Storage.makeDirectories path.parent : StateM Tree _).run t with
      | (.error e, above) => (.error e, above)
      | (.ok (), above) => (arrive path).run above := by
  rw [Storage.makeDirectories]
  simp only [Storage.makeDirectory, change, makeDirectory, missing, StateT.run, bind, StateT.bind,
    named, ne_eq, not_false_eq_true, and_self, dite_true]
  cases ran : (Storage.makeDirectories path.parent : StateM Tree _) t with
  | mk result above => cases result <;> rfl

/-- Making directories fails exactly when there is a file on the way to the last one. -/
theorem made_makeDirectories (t : Tree) (path : Path) :
    Made t (way (t.origin path.start) path.names)
      ((Storage.makeDirectories path : StateM Tree _).run t).1
      ((Storage.makeDirectories path : StateM Tree _).run t).2 := by
  obtain ⟨start, names⟩ := path
  -- Each name is made after those before it, so the induction is on the names from their end.
  induction names using List.reverseRecOn with
  | nil =>
    have located : t.locate ⟨start, []⟩ = .ok (t.origin start) := rfl
    rw [makeDirectories_of_located located]
    exact made_arrive located
  | append_singleton names name ih =>
    rw [way_concat]
    cases located : t.locate ⟨start, names ++ [name]⟩ with
    | ok place =>
      rw [makeDirectories_of_located located]
      have same := follow_eq_ok located
      rw [target_concat] at same
      exact (Made.of_directories (directories_of_follow located)).concat
        (same ▸ made_arrive located)
    | error fault =>
      rcases follow_eq_error located with rfl | ⟨rfl, p, member, file⟩
      · rw [makeDirectories_of_missing located (by simp), parent_concat]
        cases ran : (Storage.makeDirectories ⟨start, names⟩ : StateM Tree _).run t with
        | mk result above =>
          rw [ran] at ih
          cases result with
          | error e => exact ih.concat_of_error
          | ok done =>
            -- Now everything above the last name is a directory.
            have same := origin_congr ih.workingDirectory start
            have clear : ∀ p ∈ way (above.origin start) names,
                above.entry? p = some .directory := by
              intro p member
              rw [same] at member
              rw [ih.entries rfl, if_pos member]
            have arrives := locate_below clear name
            rw [same] at arrives
            exact ih.concat (made_arrive arrives)
      · rw [makeDirectories_of_stopped located]
        refine ⟨SameFiles.refl t, rfl, ⟨fun _ => ⟨p, ?_, file⟩, fun _ => ⟨_, rfl⟩⟩,
          fun done => nomatch done⟩
        rwa [way_concat] at member

/-- A file is written at the place of its path, unless there is none or it has a directory. -/
theorem run_writeText (t : Tree) (path : Path) (text : List Char) :
    (Storage.writeText path text : StateM Tree _).run t = match t.locate path with
      | .error fault => (.error ⟨fault, path⟩, t)
      | .ok place =>
        if t.entry? place = some .directory then (.error ⟨.isDirectory, path⟩, t)
        else (.ok (), t.put place (.file (Text.encode text))) := by
  simp only [Storage.writeText, Storage.write, change, write, StateT.run]
  cases located : t.locate path with
  | error fault => rfl
  | ok place =>
    cases found : t.entry? place with
    | none => simp [found]
    | some e => cases e <;> simp [found]

/-- Only the file at the place of a write is another one. -/
structure Wrote (t : Tree) (path : Path) (bytes : List UInt8) (place : List String)
    (after : Tree) : Prop where
  located : after.locate path = .ok place
  file : after.file? place = some bytes
  others : ∀ p, p ≠ place → after.file? p = t.file? p

theorem wrote_put (located : t.locate path = .ok place) (free : t.entry? place ≠ some .directory)
    (bytes : List UInt8) : Wrote t path bytes place (t.put place (.file bytes)) where
  located := by
    rw [locate_eq, origin_congr rfl]
    refine follow_mono (fun p directory => ?_) located
    rwa [ entry?_put_other]
    rintro rfl
    exact free directory
  file := file?_eq_some_iff.mpr ( entry?_put_same _ (ne_root_of_entry free))
  others p apart := by rw [file?, file?, entry?_put_other _ apart]

theorem Wrote.others_of_locate {bytes : List UInt8} (wrote : Wrote t path bytes place after)
    (other : List String) (apart : after.locate path ≠ .ok other) :
    after.file? other = t.file? other := by
  refine wrote.others other ?_
  rintro rfl
  exact apart wrote.located

def Entry.kind : Entry → EntryKind
  | .file _ => .file
  | .directory => .directory

theorem kind?_of_locate (located : t.locate path = .ok place) :
    t.kind? path = Option.map Entry.kind ( t.entry? place) := by
  rw [kind?, located]
  cases found : t.entry? place with
  | none => simp [found]
  | some e => cases e <;> simp [found, Entry.kind]

theorem kind?_of_stopped (stopped : t.locate path = .error fault) : t.kind? path = none := by
  rw [kind?, stopped]

theorem read_eq_ok_iff {bytes : List UInt8} : t.read path = .ok bytes ↔
    ∃ place, t.locate path = .ok place ∧ t.file? place = some bytes := by
  rw [read]
  cases t.locate path with
  | error fault => simp
  | ok place =>
    cases found : t.entry? place with
    | none => simp [file?, found]
    | some e => cases e <;> simp [file?, found]

theorem parent_of_locate (located : t.locate path = .ok place) :
    path.parent = path ∨ t.kind? path.parent = some .directory := by
  obtain ⟨start, names⟩ := path
  rcases List.eq_nil_or_concat names with rfl | ⟨names, name, rfl⟩
  · exact .inl rfl
  · rw [List.concat_eq_append] at located ⊢
    have clear := directories_of_follow located
    rw [parent_concat, kind?_of_locate (follow_of_directories clear), clear _ (target_mem_way _ _)]
    exact .inr rfl

/-- There is something above what is there. -/
theorem kind?_parent_ne_none (found : t.kind? path ≠ none) : t.kind? path.parent ≠ none := by
  cases located : t.locate path with
  | error fault => exact absurd (kind?_of_stopped located) found
  | ok place =>
    rcases parent_of_locate located with same | above
    · rwa [same]
    · simp [above]

theorem locate_of_parent (above : t.kind? path.parent = some .directory) :
    ∃ place, t.locate path = .ok place := by
  obtain ⟨start, names⟩ := path
  rcases List.eq_nil_or_concat names with rfl | ⟨names, name, rfl⟩
  · exact ⟨_, rfl⟩
  · rw [List.concat_eq_append] at above ⊢
    rw [parent_concat] at above
    cases located : t.locate ⟨start, names⟩ with
    | error fault => simp [kind?_of_stopped located] at above
    | ok place =>
      rw [kind?_of_locate located] at above
      obtain ⟨e, found, kind⟩ := Option.map_eq_some_iff.mp above
      cases e with
      | file bytes => contradiction
      | directory =>
        rw [locate_eq] at located
        refine ⟨next place name, ?_⟩
        simp only [locate_eq, follow_concat, located, follow_cons, found]
        rfl

end EERDiagram.Tree
