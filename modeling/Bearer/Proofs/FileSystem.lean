import Bearer.FileSystem
import Bearer.Proofs.Outcome
import Mathlib.Tactic.SplitIfs

namespace Bearer.FileSystem

/-! ## Nodes -/

theorem lookup_cons_self (place : Location) (node : Node) (nodes : List (Location × Node)) :
    ((place, node) :: nodes).lookup place = some node := by
  simp

theorem lookup_cons_ne {place other : Location} (apart : place ≠ other) (node : Node)
    (nodes : List (Location × Node)) :
    ((other, node) :: nodes).lookup place = nodes.lookup place := by
  rw [List.lookup_cons, beq_eq_false_iff_ne.2 apart]

theorem lookup_filter_ne (nodes : List (Location × Node)) (gone place : Location) :
    (nodes.filter (·.1 != gone)).lookup place =
      if place = gone then none else nodes.lookup place := by
  induction nodes with
  | nil => split <;> rfl
  | cons first nodes ih =>
      obtain ⟨other, node⟩ := first
      by_cases removed : other = gone
      · subst removed
        rw [List.filter_cons_of_neg (by simp), ih]
        split
        · rfl
        · next apart => rw [lookup_cons_ne apart]
      · rw [List.filter_cons_of_pos (by simpa using removed)]
        by_cases here : place = other
        · subst here
          rw [lookup_cons_self, if_neg removed, lookup_cons_self]
        · rw [lookup_cons_ne here, lookup_cons_ne here, ih]

theorem node?_drop (fs : FileSystem) {gone : Location} (inner : gone ≠ []) (place : Location) :
    (fs.drop gone).node? place = if place = gone then none else fs.node? place := by
  unfold node? drop
  split
  · next root => simp [root, Ne.symm inner]
  · exact lookup_filter_ne fs.nodes gone place

theorem node?_put (fs : FileSystem) {target : Location} (inner : target ≠ []) (node : Node)
    (place : Location) :
    (fs.put target node).node? place = if place = target then some node else fs.node? place := by
  unfold node? put
  split
  · next root => simp [root, Ne.symm inner]
  · rw [List.lookup_append, lookup_filter_ne]
    split
    · next here => rw [here, lookup_cons_self, Option.none_or]
    · next apart => rw [lookup_cons_ne apart, List.lookup_nil, Option.or_none]

theorem put_put (fs : FileSystem) (place : Location) (node other : Node) :
    (fs.put place node).put place other = fs.put place other := by
  simp [put]

theorem drop_put (fs : FileSystem) (place : Location) (node : Node) :
    (fs.put place node).drop place = fs.drop place := by
  simp [put, drop]

theorem drop_drop (fs : FileSystem) (place : Location) :
    (fs.drop place).drop place = fs.drop place := by
  simp [drop]

theorem drop_put_of_ne (fs : FileSystem) {place other : Location} (apart : place ≠ other)
    (node : Node) : (fs.put place node).drop other = (fs.drop other).put place node := by
  simp [put, drop, apart, Bool.and_comm]

/-! ## Ways to a place -/

theorem reach_congr {fs after : FileSystem} {start : Location} {names : List String}
    (same : ∀ place, place.length ≤ start.length + names.length →
      after.node? place = fs.node? place) : after.reach start names = fs.reach start names := by
  induction names generalizing start with
  | nil => rfl
  | cons name names ih =>
      have here := same (start ++ [name]) (by simp)
      have further : after.reach (start ++ [name]) names = fs.reach (start ++ [name]) names := by
        refine ih fun place short => same place ?_
        simp only [List.length_append, List.length_cons, List.length_nil] at short ⊢
        omega
      unfold reach
      rw [here, further]

theorem find_eq_ok_iff {fs : FileSystem} {place : Location} {node : Node} :
    fs.find place = .ok node ↔ fs.reach [] place.dropLast = .ok () ∧ fs.node? place = some node := by
  rw [find, bind_eq_ok]
  constructor
  · rintro ⟨_, way, found⟩
    cases here : fs.node? place with
    | none => simp [here] at found
    | some other =>
        rw [here] at found
        exact ⟨way, congrArg some (pure_eq_ok.1 found)⟩
  · rintro ⟨way, found⟩
    exact ⟨(), way, by rw [found]; rfl⟩

theorem find_congr {fs after : FileSystem} {place : Location}
    (same : ∀ other : Location, other.length < place.length → after.node? other = fs.node? other)
    (here : after.node? place = fs.node? place) : after.find place = fs.find place := by
  have way : after.reach [] place.dropLast = fs.reach [] place.dropLast := by
    rcases List.eq_nil_or_concat place with rfl | ⟨front, name, rfl⟩
    · rfl
    · refine reach_congr fun other short => same other ?_
      simp only [List.concat_eq_append, List.dropLast_concat, List.length_append, List.length_nil,
        List.length_singleton] at short ⊢
      omega
  rw [find, find, way, here]

theorem reach_append {fs : FileSystem} {start : Location} {names more : List String} :
    fs.reach start (names ++ more) = .ok () ↔
      fs.reach start names = .ok () ∧ fs.reach (start ++ names) more = .ok () := by
  induction names generalizing start with
  | nil => simp [reach]
  | cons name names ih =>
      rw [List.cons_append, reach, reach]
      cases fs.node? (start ++ [name]) with
      | none => simp
      | some node =>
          cases node with
          | file content mode => simp
          | directory => simpa using @ih (start ++ [name])

theorem reach_directory {fs : FileSystem} {place : Location}
    (found : fs.find place = .ok .directory) : fs.reach [] place = .ok () := by
  rcases List.eq_nil_or_concat place with rfl | ⟨front, name, rfl⟩
  · rfl
  · obtain ⟨way, node⟩ := find_eq_ok_iff.1 found
    rw [List.concat_eq_append] at way node ⊢
    rw [List.dropLast_concat] at way
    refine reach_append.2 ⟨way, ?_⟩
    rw [List.nil_append, reach, node]
    rfl

theorem reach_mono {fs after : FileSystem} {start : Location} {names : List String}
    (keeps : ∀ place, fs.node? place = some .directory → after.node? place = some .directory)
    (way : fs.reach start names = .ok ()) : after.reach start names = .ok () := by
  induction names generalizing start with
  | nil => rfl
  | cons name names ih =>
      rw [reach] at way ⊢
      split at way
      · cases way
      · cases way
      · next directory =>
          simp only [keeps _ directory]
          exact ih way

/-! ## Walks along names -/

def isStep (name : String) : Bool := name != "" && name != "."

theorem follow_idle {name : String} (idle : isStep name = false) (start : Location) :
    follow start [name] = start := by
  have passed : name = "" ∨ name = "." := by
    simpa only [isStep, Bool.and_eq_false_iff, bne_eq_false_iff_eq] using idle
  rw [follow, if_pos passed, follow]

theorem walk_cons_eq_ok {fs : FileSystem} {start place : Location} {name : String}
    {names : List String} : fs.walk start (name :: names) = .ok place ↔
      fs.node? start = some .directory ∧ name.utf8ByteSize ≤ maxName ∧
        fs.walk (follow start [name]) names = .ok place := by
  rw [walk]
  cases fs.node? start with
  | none => simp
  | some node =>
      cases node with
      | file content mode => simp
      | directory =>
          by_cases long : maxName < name.utf8ByteSize
          · simp [long, Nat.not_le.2 long]
          · simp [long, Nat.not_lt.1 long]

theorem walk_append {fs : FileSystem} {start middle : Location} {front more : List String}
    (done : fs.walk start front = .ok middle) :
    fs.walk start (front ++ more) = fs.walk middle more := by
  induction front generalizing start with
  | nil =>
      cases done
      rfl
  | cons name names ih =>
      obtain ⟨directory, short, done⟩ := walk_cons_eq_ok.1 done
      rw [List.cons_append, walk, directory]
      simp only [if_neg (Nat.not_lt.2 short)]
      exact ih done

theorem walk_filter {fs : FileSystem} {start place : Location} {names : List String}
    (done : fs.walk start names = .ok place) :
    fs.walk start (names.filter isStep) = .ok place := by
  induction names generalizing start with
  | nil => exact done
  | cons name names ih =>
      obtain ⟨directory, short, done⟩ := walk_cons_eq_ok.1 done
      cases kept : isStep name with
      | false =>
          rw [List.filter_cons_of_neg (by simp [kept])]
          rw [follow_idle kept] at done
          exact ih done
      | true =>
          rw [List.filter_cons_of_pos kept]
          exact walk_cons_eq_ok.2 ⟨directory, short, ih done⟩

theorem walk_mono {fs after : FileSystem} {start place : Location} {names : List String}
    (keeps : ∀ other, fs.node? other = some .directory → after.node? other = some .directory)
    (done : fs.walk start names = .ok place) : after.walk start names = .ok place := by
  induction names generalizing start with
  | nil => exact done
  | cons name names ih =>
      obtain ⟨directory, short, done⟩ := walk_cons_eq_ok.1 done
      exact walk_cons_eq_ok.2 ⟨keeps _ directory, short, ih done⟩

/-! ## Names behind a path -/

structure Plain (name : String) : Prop where
  noSlash : '/' ∉ name.toList
  isStep : isStep name = true
  down : name ≠ ".."
  short : name.utf8ByteSize ≤ maxName

theorem Plain.follow {name : String} (plain : Plain name) (start : Location) :
    follow start [name] = start ++ [name] := by
  have kept := plain.isStep
  simp only [FileSystem.isStep, Bool.and_eq_true, bne_iff_ne] at kept
  rw [FileSystem.follow, if_neg (by simp [kept]), if_neg plain.down, FileSystem.follow]

theorem Plain.names {name : String} (plain : Plain name) : names name = [name] := by
  rw [FileSystem.names, List.splitOn_eq_singleton plain.noSlash]
  simp

theorem Plain.isAbsolute {name : String} (plain : Plain name) : isAbsolute name = false := by
  rw [FileSystem.isAbsolute, beq_eq_false_iff_ne]
  intro slash
  exact plain.noSlash (List.mem_of_mem_head? slash)

theorem Plain.join_eq {name : String} (plain : Plain name) (path : String) :
    join path name = if path = "" then name
      else if path.toList.getLast? = some '/' then path ++ name else path ++ "/" ++ name := by
  simp only [join, plain.isAbsolute, Bool.false_eq_true, false_or]

theorem names_slash {path : String} {front back : List Char}
    (parts : path.toList = front ++ '/' :: back) :
    names path = names (String.ofList front) ++ names (String.ofList back) := by
  simp only [names, String.toList_ofList, parts, List.splitOn_append_cons_self, List.map_append]

theorem steps_join (path : String) {name : String} (plain : Plain name) :
    (names (join path name)).filter isStep = (names path).filter isStep ++ [name] := by
  have last : (names name).filter isStep = [name] := by
    rw [plain.names, List.filter_cons_of_pos plain.isStep, List.filter_nil]
  have behind : (names (String.ofList name.toList)).filter isStep = [name] := by
    rw [String.ofList_toList, last]
  have idle : (names (String.ofList [])).filter isStep = [] := by decide
  rw [plain.join_eq]
  split
  · next none => rw [none, last, show "" = String.ofList [] from rfl, idle, List.nil_append]
  · split
    · next slash =>
        obtain ⟨front, parts⟩ := List.getLast?_eq_some_iff.1 slash
        have whole : (path ++ name).toList = front ++ '/' :: name.toList := by
          rw [String.toList_append, parts, List.append_assoc, List.singleton_append]
        rw [names_slash whole, names_slash parts, List.filter_append, List.filter_append, behind,
          idle, List.append_nil]
    · have whole : (path ++ "/" ++ name).toList = path.toList ++ '/' :: name.toList := by
        rw [String.toList_append, String.toList_append, List.append_assoc]
        rfl
      rw [names_slash whole, List.filter_append, behind, String.ofList_toList]

theorem isAbsolute_join (path : String) {name : String} (plain : Plain name) :
    isAbsolute (join path name) = isAbsolute path := by
  have first (more : String) (filled : path ≠ "") :
      isAbsolute (path ++ more) = isAbsolute path := by
    have chars : path.toList ≠ [] := fun none => filled (String.toList_eq_nil_iff.1 none)
    rw [isAbsolute, isAbsolute, String.toList_append, List.head?_append,
      List.head?_eq_some_head chars, Option.some_or]
  rw [plain.join_eq]
  split
  · next none =>
      rw [plain.isAbsolute, none]
      rfl
  · next filled =>
      split
      · exact first name filled
      · rw [String.append_assoc]
        exact first _ filled

/-! ## Making directories -/

theorem ensureDirectory_of_walk {fs : FileSystem} {start place : Location} {names : List String}
    (done : fs.walk start names = .ok place) : fs.ensureDirectory start names =
      match fs.node? place with
      | some .directory => .ok fs
      | some (.file _ _) => .error .exists
      | none => .ok (fs.put place .directory) := by
  rw [ensureDirectory, done]
  rfl

theorem ensureWay_of_ensured {fs after : FileSystem} {start : Location} {front : List String}
    {name : String} (done : fs.ensureDirectory start (front ++ [name]) = .ok after) :
    fs.ensureWay start (front ++ [name]).reverse = (.ok (), after) := by
  rw [List.reverse_append, List.reverse_singleton, List.singleton_append, ensureWay]
  simp only [List.reverse_cons, List.reverse_reverse, done]

def withDirectory (fs : FileSystem) (place : Location) : FileSystem :=
  if fs.node? place = none then fs.put place .directory else fs

theorem node?_withDirectory (fs : FileSystem) {target : Location} (inner : target ≠ [])
    (place : Location) : (fs.withDirectory target).node? place =
      if place = target ∧ fs.node? target = none then some .directory else fs.node? place := by
  rw [withDirectory]
  split
  · next absent => simp only [node?_put fs inner, absent, and_true]
  · next there => rw [if_neg fun both => there both.2]

@[simp] theorem workDir_withDirectory (fs : FileSystem) (place : Location) :
    (fs.withDirectory place).workDir = fs.workDir := by
  rw [withDirectory]
  split <;> rfl

theorem withDirectory_of_directory {fs : FileSystem} {place : Location}
    (there : fs.node? place = some .directory) : fs.withDirectory place = fs := by
  rw [withDirectory, if_neg (by simp [there])]

theorem makeDirectories_join {fs : FileSystem} {path name : String} {place : Location}
    (plain : Plain name) (fits : checkPath (join path name) = .ok ())
    (way : fs.walk (fs.origin path) (names path) = .ok place)
    (directory : fs.node? place = some .directory)
    (noFile : ∀ content mode, fs.node? (place ++ [name]) ≠ some (.file content mode)) :
    fs.makeDirectories (join path name) = (.ok (), fs.withDirectory (place ++ [name])) := by
  have walked : fs.walk (fs.origin (join path name)) ((names path).filter isStep ++ [name]) =
      .ok (place ++ [name]) := by
    rw [origin, isAbsolute_join path plain]
    refine (walk_append (walk_filter way)).trans ?_
    refine walk_cons_eq_ok.2 ⟨directory, plain.short, ?_⟩
    rw [walk, plain.follow]
  have steps : (names (join path name)).filter (fun name => name != "" && name != ".") =
      (names path).filter isStep ++ [name] := steps_join path plain
  simp only [makeDirectories, fits, steps]
  apply ensureWay_of_ensured
  rw [ensureDirectory_of_walk walked, withDirectory]
  cases there : fs.node? (place ++ [name]) with
  | none => rfl
  | some node =>
      cases node with
      | file content mode => exact absurd there (noFile content mode)
      | directory => rfl

/-! ## Steps -/

theorem write_eq_ok {fs after : FileSystem} {place : Location} {content : Bytes}
    (done : fs.step (.write place content) = .ok after) :
    ∃ mode, after = fs.put place (.file content mode) := by
  simp only [step, bind_eq_ok] at done
  obtain ⟨-, -, written⟩ := done
  split at written
  · cases written
  · next mode _ => exact ⟨mode, (pure_eq_ok.1 written).symm⟩
  · exact ⟨defaultMode, (pure_eq_ok.1 written).symm⟩

theorem setMode_eq_ok {fs after : FileSystem} {place : Location} {mode : Nat}
    (done : fs.step (.setMode place mode) = .ok after) :
    after = fs ∨ ∃ content before, fs.node? place = some (.file content before) ∧
      after = fs.put place (.file content mode) := by
  simp only [step, bind_eq_ok, find_eq_ok_iff] at done
  obtain ⟨node, ⟨-, found⟩, changed⟩ := done
  cases node with
  | file content before => exact .inr ⟨content, before, found, (pure_eq_ok.1 changed).symm⟩
  | directory => exact .inl (pure_eq_ok.1 changed).symm

theorem rename_eq_ok {fs after : FileSystem} {source target : Location}
    (done : fs.step (.rename source target) = .ok after) :
    ∃ node, fs.node? source = some node ∧ after = (fs.drop source).put target node := by
  simp only [step, bind_eq_ok, find_eq_ok_iff] at done
  obtain ⟨node, ⟨-, found⟩, -, -, moved⟩ := done
  split at moved
  · cases moved
  · exact ⟨node, found, (pure_eq_ok.1 moved).symm⟩

theorem remove_eq_ok {fs after : FileSystem} {place : Location}
    (done : fs.step (.remove place) = .ok after) : after = fs.drop place := by
  simp only [step, bind_eq_ok, find_eq_ok_iff] at done
  obtain ⟨node, -, removed⟩ := done
  cases node with
  | file content mode => exact (pure_eq_ok.1 removed).symm
  | directory => cases removed

theorem write_ok {fs : FileSystem} {place : Location} {content : Bytes}
    (way : fs.reach [] place.dropLast = .ok ()) (noDirectory : fs.node? place ≠ some .directory) :
    ∃ after, fs.step (.write place content) = .ok after := by
  simp only [step, way, ok_bind]
  cases there : fs.node? place with
  | none => exact ⟨_, rfl⟩
  | some node =>
      cases node with
      | file held mode => exact ⟨_, rfl⟩
      | directory => exact absurd there noDirectory

theorem setMode_ok {fs : FileSystem} {place : Location} {content : Bytes} {before : Nat}
    (found : fs.find place = .ok (.file content before)) (mode : Nat) :
    fs.step (.setMode place mode) = .ok (fs.put place (.file content mode)) := by
  simp only [step, found, ok_bind]
  rfl

theorem rename_ok {fs : FileSystem} {source target : Location} {node : Node}
    (found : fs.find source = .ok node) (way : fs.reach [] target.dropLast = .ok ())
    (noDirectory : fs.node? target ≠ some .directory) :
    fs.step (.rename source target) = .ok ((fs.drop source).put target node) := by
  simp only [step, found, way, ok_bind]
  cases there : fs.node? target with
  | none => rfl
  | some node =>
      cases node with
      | file held mode => rfl
      | directory => exact absurd there noDirectory

theorem remove_ok {fs : FileSystem} {place : Location} {content : Bytes} {mode : Nat}
    (found : fs.find place = .ok (.file content mode)) :
    fs.step (.remove place) = .ok (fs.drop place) := by
  simp only [step, found, ok_bind]
  rfl

/-! ## Listings -/

def namesIn (fs : FileSystem) (place : Location) : List String :=
  fs.nodes.filterMap fun (other, _) => if other.dropLast = place then other.getLast? else none

theorem list_eq_ok_iff {fs : FileSystem} {place : Location} {names : List String} :
    fs.list place = .ok names ↔ fs.find place = .ok .directory ∧ fs.namesIn place = names := by
  rw [list, bind_eq_ok]
  constructor
  · rintro ⟨node, found, listed⟩
    cases node with
    | file content mode => cases listed
    | directory => exact ⟨found, pure_eq_ok.1 listed⟩
  · rintro ⟨found, rfl⟩
    exact ⟨.directory, found, rfl⟩

theorem list_congr {fs after : FileSystem} {place : Location}
    (found : after.find place = fs.find place) (names : after.namesIn place = fs.namesIn place) :
    after.list place = fs.list place := by
  rw [list, list, found]
  cases fs.find place with
  | error fault => rfl
  | ok node =>
      cases node with
      | file content mode => rfl
      | directory => exact congrArg Except.ok names

theorem mem_namesIn {fs : FileSystem} {place : Location} {name : String} :
    name ∈ fs.namesIn place ↔ (fs.node? (place ++ [name])).isSome = true := by
  have inner : place ++ [name] ≠ [] := by simp
  rw [node?, if_neg inner, List.lookup_isSome_iff, namesIn, List.mem_filterMap]
  constructor
  · rintro ⟨⟨other, node⟩, inside, isLast⟩
    by_cases below : other.dropLast = place
    · simp only [below, if_true] at isLast
      obtain ⟨front, rfl⟩ := List.getLast?_eq_some_iff.1 isLast
      rw [List.dropLast_concat] at below
      subst below
      exact ⟨_, inside, by simp⟩
    · simp [below] at isLast
  · rintro ⟨⟨other, node⟩, inside, same⟩
    obtain rfl : place ++ [name] = other := by simpa using same
    exact ⟨_, inside, by simp⟩

theorem namesIn_drop (fs : FileSystem) (place other : Location) (gone : String) :
    (fs.drop (place ++ [gone])).namesIn other =
      if other = place then (fs.namesIn place).filter (· != gone) else fs.namesIn other := by
  have cut (entry : Location × Node) :
      (if entry.1 != place ++ [gone] then
        if entry.1.dropLast = other then entry.1.getLast? else none else none) =
      (if entry.1.dropLast = other then entry.1.getLast? else none).filter fun name =>
        !decide (other = place) || name != gone := by
    obtain ⟨there, node⟩ := entry
    rcases List.eq_nil_or_concat there with rfl | ⟨front, name, rfl⟩
    · simp
    · by_cases below : front = other
      · by_cases same : other = place <;> by_cases named : name = gone <;>
          simp [below, same, named, Option.filter]
      · simp [below]
  have whole : (fs.drop (place ++ [gone])).namesIn other = (fs.namesIn other).filter fun name =>
      !decide (other = place) || name != gone := by
    simp only [namesIn, drop, List.filterMap_filter, List.filter_filterMap, cut]
  rw [whole]
  split
  · next same => simp [same]
  · next apart => simp [apart]

theorem namesIn_put (fs : FileSystem) (place other : Location) (name : String) (node : Node) :
    (fs.put (place ++ [name]) node).namesIn other =
      if other = place then (fs.namesIn place).filter (· != name) ++ [name]
      else fs.namesIn other := by
  have last : (fs.put (place ++ [name]) node).namesIn other =
      (fs.drop (place ++ [name])).namesIn other ++ if place = other then [name] else [] := by
    simp only [namesIn, put, drop, List.filterMap_append]
    by_cases here : place = other <;> simp [here]
  rw [last, namesIn_drop]
  by_cases here : other = place
  · simp [here]
  · simp [here, Ne.symm here]

end Bearer.FileSystem
