import Handoff.Proofs.Directory.Clash
import Handoff.Proofs.Directory.Growth
/-!
# Crash safety of writes

Whatever becomes of a `put`, its key has the old value or the new one, the other keys keep
theirs, and a listing gives the old keys or these and the one that was put.  Only keys that had
no value before can be answered with a fault afterwards: those behind the key that was put, and
those with a name that is too long.
-/

namespace Handoff

namespace DirectoryStore

open FileTree (below Course)
open Text (utf8)

variable {root : Path} {cwd location : Location} {before tree after : FileTree}
  {front : List String} {name start : String} {stamp : WriterStamp} {key other : BlobKey}
  {value : ByteArray} {outcome : Option (Except StoreFault Unit)}

/-- The trees that come about below an empty root by writes and removals, which may fail or be
cut off, with temporary files that were left behind. -/
inductive Kept (root : Path) (cwd location : Location) : FileTree → Prop
  | empty {tree : FileTree} (reaches : tree.Reaches cwd root location)
      (empty : ∀ place, place ≠ [] → tree.lookup (location ++ place) = none) :
      Kept root cwd location tree
  | put {tree after : FileTree} {stamp : WriterStamp} {key : BlobKey} {value : ByteArray}
      {outcome : Option (Except StoreFault Unit)} (kept : Kept root cwd location tree)
      (built : key.Built) (course : Course cwd (put root stamp key value) tree outcome after) :
      Kept root cwd location after
  | delete {tree after : FileTree} {key : BlobKey} {outcome : Option (Except StoreFault Unit)}
      (kept : Kept root cwd location tree) (built : key.Built)
      (course : Course cwd (delete root key) tree outcome after) : Kept root cwd location after
  | leftover {tree : FileTree} {front : List String} {name : String}
      (kept : Kept root cwd location tree) (dirs : tree.HasDirs location front)
      (plain : Path.IsPlain name) (named : FileTree.IsName name)
      (temporary : temporaryStart.toList.isPrefixOf name.toList = true)
      (fresh : tree.lookup (below location (front ++ [name])) = none) (id mode : Nat)
      (content : ByteArray) :
      Kept root cwd location (tree.set (below location (front ++ [name])) (.file id content mode))

theorem Tended.leftover (h : Tended root cwd location tree) (hdirs : tree.HasDirs location front)
    (hplain : Path.IsPlain name) (hnamed : FileTree.IsName name)
    (hfresh : tree.lookup (below location (front ++ [name])) = none) (id mode : Nat)
    (content : ByteArray) :
    Tended root cwd location
      (tree.set (below location (front ++ [name])) (.file id content mode)) := by
  have hfront : ∀ name ∈ front, Path.IsPlain name := (h.browsable.fits hdirs).plain
  refine h.alter (by simp) (FileTree.free_of_none hfresh) (FileTree.alters_set _ _ _)
    (h.distinct.set _ _) ?_
  rintro _ ⟨⟩
  refine ⟨.inr (.intro id content mode), ⟨?_, ?_, ?_⟩, nofun⟩
  · exact List.forall_mem_append.2 ⟨hfront, List.forall_mem_singleton.2 hplain⟩
  · exact List.forall_mem_append.2 ⟨hdirs.named, List.forall_mem_singleton.2 hnamed⟩
  · rwa [List.dropLast_concat]

theorem Kept.tended (h : Kept root cwd location tree) : Tended root cwd location tree := by
  induction h with
  | empty reaches empty => exact tended_empty reaches empty
  | put kept built course ih => exact (ih.put_course built course).1
  | delete kept built course ih => exact ih.delete_course built course
  | leftover kept dirs plain named temporary fresh id mode content ih =>
      exact ih.leftover dirs plain named fresh id mode content

/-- How the answer to a `get` of another key can become another one when a key is put. -/
inductive Drifts (key other : BlobKey) (placed : Bool) :
    Except StoreFault (Option ByteArray) → Except StoreFault (Option ByteArray) → Prop
  | same (answer : Except StoreFault (Option ByteArray)) : Drifts key other placed answer answer
  /-- The file of the key is where a directory was looked for. -/
  | blocked (put : placed = true) (behind : key.segments <+: other.segments) :
      Drifts key other placed (.ok none) (.error (.os .notDirectory))
  /-- The look gets as far as a name that no file can have. -/
  | tooLong (long : HasLong other.segments) :
      Drifts key other placed (.ok none) (.error (.os .nameTooLong))

/-- The second list has the keys of the first and this one if it starts as wanted, each of them
once and in the order of their bytes. -/
structure Joins (key : BlobKey) (start : String) (keys more : List BlobKey) : Prop where
  mem_iff : ∀ other, other ∈ more ↔
    other ∈ keys ∨ other = key ∧ utf8 start.toList <+: utf8 key.text.toList
  ascending : more.Pairwise fun a b => utf8 a.text.toList < utf8 b.text.toList

/-- What the calls of a store answer after a `put`, compared with what they answered before. -/
structure Survives (root : Path) (cwd : Location) (key : BlobKey) (value : ByteArray)
    (placed : Bool) (before after : FileTree) : Prop where
  own : placed = true → (FileTree.run cwd (get root key) after).1 = .ok (some value)
  drifts : ∀ other : BlobKey, other.Valid → Lasting other.segments →
    (placed = true → other ≠ key) → Drifts key other placed
      (FileTree.run cwd (get root other) before).1 (FileTree.run cwd (get root other) after).1
  blocked : placed = true → ∀ other : BlobKey, other.Valid → Lasting other.segments →
    key.segments <+: other.segments → other ≠ key →
    (pathFor root other).text.utf8ByteSize < FileTree.pathMax →
      (FileTree.run cwd (get root other) after).1 = .error (.os .notDirectory)
  list : ∀ start, ∃ keys more, (FileTree.run cwd (list root start) before).1 = .ok keys ∧
    (FileTree.run cwd (list root start) after).1 = .ok more ∧
      if placed then Joins key start keys more else more = keys

theorem Tended.drifts {placed : Bool} (h : Tended root cwd location before)
    (hafter : Tended root cwd location after) (hvalid : other.Valid)
    (hpeek : (pathFor root other).text.utf8ByteSize < FileTree.pathMax →
      Drifts key other placed (found (peek before location other.segments))
        (found (peek after location other.segments))) :
    Drifts key other placed (FileTree.run cwd (get root other) before).1
      (FileTree.run cwd (get root other) after).1 := by
  have hplain := (BlobKey.Built.checked hvalid).isPlain
  by_cases hsize : (pathFor root other).text.utf8ByteSize < FileTree.pathMax
  · rw [run_get h.reaches h.noLinks hplain hsize,
      run_get hafter.reaches hafter.noLinks hplain hsize]
    exact hpeek hsize
  · obtain ⟨answer, hanswer⟩ := run_get_too_long (Nat.not_lt.1 hsize) cwd
    rw [hanswer, hanswer]
    exact .same answer

theorem Tended.survives_of_grown (h : Tended root cwd location before)
    (hafter : Tended root cwd location after) (hgrown : Grown location before after) :
    Survives root cwd key value false before after where
  own := nofun
  drifts other hvalid hlasting _ := by
    refine h.drifts hafter hvalid fun _ => ?_
    rcases hgrown.peek_cases hlasting h.lookup_append_of_none with heq | ⟨hold, hfault, hlong⟩
    · rw [heq]
      exact .same _
    · rw [hold, hfault]
      exact .tooLong hlong
  blocked := nofun
  list start := by
    obtain ⟨keys, hrun, hkeys⟩ := h.browsable.run_list start
    obtain ⟨more, hrunMore, hmore⟩ := hafter.browsable.run_list start
    rw [h.shown_of_grown hgrown] at hmore
    exact ⟨keys, more, congrArg Prod.fst hrun, congrArg Prod.fst hrunMore, hmore.eq hkeys⟩

theorem Tended.survives_of_settled (h : Tended root cwd location before)
    (hafter : Tended root cwd location after) (hvalid : key.Valid)
    (hlasting : Lasting key.segments) (hsettled : Settled root location key value before after) :
    Survives root cwd key value true before after where
  own _ := by
    rw [run_get hafter.reaches hafter.noLinks (BlobKey.Built.checked hvalid).isPlain
      hsettled.short, hsettled.peek_self hlasting]
    rfl
  drifts other hother hlast hne := by
    refine h.drifts hafter hother fun _ => ?_
    rcases hsettled.peek_cases h hlast (hne rfl) with
      heq | ⟨hold, ⟨hfault, hbehind⟩ | ⟨hfault, hlong⟩⟩
    · rw [heq]
      exact .same _
    · rw [hold, hfault]
      exact .blocked rfl hbehind
    · rw [hold, hfault]
      exact .tooLong hlong
  blocked _ other hother hlast hbehind hne hsize := by
    rw [run_get hafter.reaches hafter.noLinks (BlobKey.Built.checked hother).isPlain hsize,
      hsettled.peek_behind hlast hbehind hne]
    rfl
  list start := by
    obtain ⟨keys, hrun, hkeys⟩ := h.browsable.run_list start
    obtain ⟨more, hrunMore, hmore⟩ := hafter.browsable.run_list start
    refine ⟨keys, more, congrArg Prod.fst hrun, congrArg Prod.fst hrunMore, fun other => ?_,
      hmore.ascending⟩
    rw [hkeys.mem_iff, hmore.mem_iff]
    by_cases hother : other = key
    · subst hother
      rw [hsettled.shown_self hvalid hlasting]
      simp
    · rw [hsettled.shown_of_ne h hother]
      simp [hother]

/-- Whatever becomes of a `put`, all calls go on to be answered as before or as with its value in
place, and as before when it reports a fault; but a key without a value can be answered with a
fault when it is behind the one that was put, or has a name that is too long. -/
theorem put_crash_safe (hkept : Kept root cwd location tree) (hvalid : key.Valid)
    (hlasting : Lasting key.segments)
    (hcourse : Course cwd (put root stamp key value) tree outcome after) :
    ∃ placed : Bool,
      (∀ result, outcome = some result → (result = .ok () ↔ placed = true)) ∧
      Survives root cwd key value placed tree after := by
  have htended := hkept.tended
  obtain ⟨hafter, placed, houtcome, hseen⟩ := htended.put_course (.checked hvalid) hcourse
  refine ⟨placed, houtcome, ?_⟩
  cases placed with
  | false => exact htended.survives_of_grown hafter hseen
  | true => exact htended.survives_of_settled hafter hvalid hlasting hseen

/-! ## A full disk -/

/-- A full disk can end a write at any part of the value, and its temporary file stays. -/
theorem Holds.exists_course_full {keys : BlobKey → Prop} {contents : Contents}
    (h : Holds keys location tree contents) (hkeys : Fileable root keys)
    (hroot : tree.Reaches cwd root location) (hkey : keys key) (hstamp : Bounded stamp)
    (part rest : ByteArray) (fault : OsFault) : ∃ after,
      Course cwd (put root stamp key (part ++ rest)) tree (some (.error (.os fault))) after := by
  obtain ⟨front, last, hsplit⟩ := key.exists_segments
  have hempty := (FileTree.reaches_iff.1 hroot).2.1
  obtain ⟨habove, made, hmake, hkept, hdirs, hholds⟩ := h.run_makeDirs hkeys hroot hkey hsplit
  have hfree := FileTree.free_of_none (hholds.lookup_temporary hkeys front stamp)
  obtain ⟨written, -, -, hwrite, -, -⟩ := (hkeys.fits_temporary hempty hkey hsplit hstamp).write
    ((hroot.mono hkept).seat front) hdirs hholds.noLinks hfree part
  rw [Path.joins_concat] at hwrite
  refine ⟨written, ?_⟩
  rw [Sharing.put_eq habove]
  refine Course.of_run_bind hmake (.ask (.brokeOff fault hwrite) ?_)
  exact .ask (.refused _ fault) (.ended _ _)

theorem put_crash_safe_on_full_disk : ∃ tree after,
    Kept ⟨"store"⟩ [] [.named "store"] tree ∧ (BlobKey.signal .offered).Valid ∧
      Lasting (BlobKey.signal .offered).segments ∧
      Course [] (put ⟨"store"⟩ ⟨2, 1⟩ (BlobKey.signal .offered) ("r".toUTF8 ++ "8".toUTF8)) tree
        (some (.error (.os .noSpace))) after ∧
      (FileTree.run [] (get ⟨"store"⟩ (BlobKey.signal .offered)) after).1 =
        .ok (some "r7".toUTF8) := by
  have hoffered : BlobKey.signal .offered ∈ folderKeys := by decide
  have hvalid : (BlobKey.signal .offered).Valid := by decide
  have hlasting : Lasting (BlobKey.signal .offered).segments := by decide
  have hfirst : Bounded ⟨2, 0⟩ := ⟨by decide, by decide⟩
  have hsecond : Bounded ⟨2, 1⟩ := ⟨by decide, by decide⟩
  have hempty : Holds (· ∈ folderKeys) [.named "store"] plainFiles fun _ => none :=
    holds_empty plainFiles_lookup
  obtain ⟨tree, hput, hholds, hkept⟩ :=
    hempty.run_put fileable_folderKeys plainFiles_reaches hoffered hfirst "r7".toUTF8
  have hroot := plainFiles_reaches.mono hkept
  have hreached : Kept ⟨"store"⟩ [] [.named "store"] tree :=
    .put (.empty plainFiles_reaches plainFiles_lookup) (.checked hvalid) (.of_run hput)
  obtain ⟨after, hcourse⟩ := hholds.exists_course_full fileable_folderKeys hroot hoffered hsecond
    "r".toUTF8 "8".toUTF8 .noSpace
  refine ⟨tree, after, hreached, hvalid, hlasting, hcourse, ?_⟩
  obtain ⟨placed, houtcome, hsurvives⟩ := put_crash_safe hreached hvalid hlasting hcourse
  have hfailed : ¬placed = true := fun hplaced => by
    have hok := (houtcome _ rfl).2 hplaced
    cases hok
  have hdrifts := hsurvives.drifts _ hvalid hlasting fun hplaced => absurd hplaced hfailed
  rw [hholds.run_get fileable_folderKeys hroot hoffered, Function.update_self] at hdrifts
  generalize (FileTree.run [] (get ⟨"store"⟩ (BlobKey.signal .offered)) after).1 = answer at *
  cases hdrifts
  rfl

/-! ## A key behind another one -/

/-- A key that had no value is answered with a fault after a `put` of one that is above it. -/
theorem get_blocked_by_put : (⟨"a"⟩ : BlobKey).Valid ∧ (⟨"a/b"⟩ : BlobKey).Valid ∧
    Lasting (BlobKey.segments ⟨"a"⟩) ∧ Lasting (BlobKey.segments ⟨"a/b"⟩) ∧
    Kept ⟨"store"⟩ [] [.named "store"] plainFiles ∧
    (FileTree.run [] (get ⟨"store"⟩ ⟨"a/b"⟩) plainFiles).1 = .ok none ∧
    ∃ after, FileTree.run [] (put ⟨"store"⟩ ⟨2, 0⟩ ⟨"a"⟩ "x".toUTF8) plainFiles =
        (.ok (), after) ∧
      (FileTree.run [] (get ⟨"store"⟩ ⟨"a/b"⟩) after).1 = .error (.os .notDirectory) := by
  have hkeys : Fileable ⟨"store"⟩ (· ∈ [(⟨"a"⟩ : BlobKey)]) := {
    valid := by decide
    apart := fun {a b} ha hb _ => by rw [List.mem_singleton.1 ha, List.mem_singleton.1 hb]
    lasting := by decide
    fits := by decide
    short := by decide }
  have hempty : Holds (· ∈ [(⟨"a"⟩ : BlobKey)]) [.named "store"] plainFiles fun _ => none :=
    holds_empty plainFiles_lookup
  have hplain : ∀ segment ∈ BlobKey.segments ⟨"a/b"⟩, Path.IsPlain segment :=
    BlobKey.Built.isPlain (.checked (by decide))
  have hsize : (pathFor ⟨"store"⟩ ⟨"a/b"⟩).text.utf8ByteSize < FileTree.pathMax := by decide
  have hstamp : Bounded ⟨2, 0⟩ := ⟨by decide, by decide⟩
  have hmember : (⟨"a"⟩ : BlobKey) ∈ [(⟨"a"⟩ : BlobKey)] := List.mem_singleton_self _
  obtain ⟨after, hput, hholds, hkept⟩ :=
    hempty.run_put hkeys plainFiles_reaches hmember hstamp "x".toUTF8
  refine ⟨by decide, by decide, by decide, by decide, .empty plainFiles_reaches plainFiles_lookup,
    ?_, after, hput, ?_⟩
  · rw [run_get plainFiles_reaches hempty.noLinks hplain hsize]
    rfl
  · obtain ⟨id, mode, hfile⟩ := hholds.file (Function.update_self _ _ _)
    have hname : ∀ segment ∈ BlobKey.segments ⟨"a"⟩, FileTree.IsName segment := by
      have hsegments : BlobKey.segments ⟨"a"⟩ = ["a"] := by decide
      rw [hsegments]
      exact List.forall_mem_singleton.2 ⟨by decide, by decide, by decide⟩
    rw [run_get (plainFiles_reaches.mono hkept) hholds.noLinks hplain hsize,
      peek_behind (FileTree.hasDirs_nil _ _) hname (FileTree.free_of_file hfile) (by decide)
        (by decide), hfile]
    rfl

end DirectoryStore

end Handoff
