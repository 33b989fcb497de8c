import Handoff.Proofs.Directory.Separation
/-!
# Writers with one temporary file

The name of a temporary file tells the process and the number of the write, but not the host.
Two processes that have the same number there, on different hosts, can write the same temporary
file; then a write that succeeds can put the value of the other into place.
-/

namespace Handoff

namespace Sharing

open DirectoryStore (temporaryName pathFor pathFor_eq Fileable Holds Bounded plainFiles
  folderKeys fileable_folderKeys)
open FileTree (below below_ne_nil)

variable {ι : Type} [DecidableEq ι] {clients : ι → Client} {location : Location}
  {files after : FileTree} {s : State ι} {client : ι} {keys : BlobKey → Prop}
  {contents : Contents} {stamp : WriterStamp} {key other : BlobKey} {value content : ByteArray}
  {rest : List Errand} {parent : Path}

/-! ## The stages of a write -/

/-- What is left of a `put` when the temporary file is written. -/
def settle (root : Path) (stamp : WriterStamp) (key : BlobKey) (parent : Path) :
    Program Files (Except StoreFault Unit) := do
  match ← Files.rename (parent.join (temporaryName stamp)) (pathFor root key) with
  | .error fault => DirectoryStore.discard (parent.join (temporaryName stamp)) fault
  | .ok () => return .ok ()

def deposit (root : Path) (stamp : WriterStamp) (key : BlobKey) (value : ByteArray)
    (parent : Path) : Program Files (Except StoreFault Unit) := do
  match ← Files.write (parent.join (temporaryName stamp)) value with
  | .error fault => DirectoryStore.discard (parent.join (temporaryName stamp)) fault
  | .ok () => settle root stamp key parent

theorem put_eq {root : Path} (h : IsAbove root key parent) :
    DirectoryStore.put root stamp key value = (do
      match ← Files.makeDirAll parent with
      | .error fault => return .error (.os fault)
      | .ok () => deposit root stamp key value parent) := by
  have habove : (pathFor root key).parent? = some parent := h
  rw [DirectoryStore.put]
  dsimp only
  rw [habove]
  rfl

def Calm (request : FileCall) : Prop :=
  ∀ source target, request ≠ .rename source target

theorem Alone.of_sit {allowed : FileCall → Prop} {errand : Errand} {desk : Desk} {t : State ι}
    (h : Alone allowed client errand (s.sit client desk) t) : Alone allowed client errand s t where
  desks other hother := (h.desks other hother).trans (s.sit_desks_of_ne hother desk)
  kept := h.kept
  asked := h.asked

theorem Reachable.prepare (h : Reachable clients files s)
    (hdesk : s.desks client = ⟨none, ⟨stamp, .put key value⟩ :: rest⟩)
    (hkeys : Fileable (clients client).root keys) (hkey : keys key)
    (hholds : Holds keys location s.files contents)
    (hroot : s.files.Reaches (clients client).cwd (clients client).root location)
    {front : List String} {last : String} (hsplit : key.segments = front ++ [last]) :
    ∃ t, Reachable clients files t ∧ s.files.Keeps t.files ∧
      Holds keys location t.files contents ∧ t.files.HasDirs location front ∧
      t.desks client = ⟨some ⟨⟨stamp, .put key value⟩, deposit (clients client).root stamp key value
        (((clients client).root.seat front).joins front)⟩, rest⟩ ∧
      Alone Calm client ⟨stamp, .put key value⟩ s t := by
  obtain ⟨habove, made, hmake, hkept, hdirs, hmade⟩ :=
    hholds.run_makeDirs hkeys hroot hkey hsplit
  have hcalm : (Files.makeDirAll (((clients client).root.seat front).joins front)).Within Calm
      fun _ => True :=
    Program.Follows.mono (follows_makeDirs (fun _ _ _ => by rintro _ _ ⟨⟩)
      fun _ _ _ => by rintro _ _ ⟨⟩) fun _ _ _ => trivial
  have hstart : Reachable clients files (s.sit client ⟨some ⟨⟨stamp, .put key value⟩,
      (clients client).program ⟨stamp, .put key value⟩⟩, rest⟩) := .tail h (.start hdesk)
  obtain ⟨t, hreach, hfiles, hnext, halone⟩ := hstart.run hmake hcalm (by
    rw [s.sit_desks_self, Client.program, DirectoryStore.answer, put_eq habove])
  refine ⟨t, hreach, ?_, ?_, ?_, hnext, halone.of_sit⟩ <;> rw [hfiles]
  · exact hkept
  · exact hmade
  · exact hdirs

theorem Reachable.write_temporary (h : Reachable clients files s)
    (hdesk : s.desks client = ⟨some ⟨⟨stamp, .put key value⟩,
      deposit (clients client).root stamp key value parent⟩, rest⟩)
    (hwrite : s.files.write (clients client).cwd (parent.join (temporaryName stamp)).text value =
      .ok after) :
    ∃ t, Reachable clients files t ∧ t.files = after ∧
      t.desks client = ⟨some ⟨⟨stamp, .put key value⟩,
        settle (clients client).root stamp key parent⟩, rest⟩ ∧
      Alone Calm client ⟨stamp, .put key value⟩ s t := by
  have hrun : FileTree.run (clients client).cwd
      (Files.write (parent.join (temporaryName stamp)) value) s.files = (.ok (), after) := by
    rw [FileTree.run_write, hwrite]
    rfl
  have hcalm : (Files.write (parent.join (temporaryName stamp)) value).Within Calm
      fun _ => True := fun answer => ⟨(), by rintro _ _ ⟨⟩, trivial⟩
  rw [deposit] at hdesk
  obtain ⟨t, hreach, hfiles, hnext, halone⟩ := h.run hrun hcalm hdesk
  exact ⟨t, hreach, hfiles, hnext, halone⟩

theorem Reachable.rename_temporary (h : Reachable clients files s)
    (hdesk : s.desks client = ⟨some ⟨⟨stamp, .put key value⟩,
      settle (clients client).root stamp key parent⟩, rest⟩)
    (hrename : s.files.rename (clients client).cwd (parent.join (temporaryName stamp)).text
      (pathFor (clients client).root key).text = .ok after) :
    ∃ t, Reachable clients files t ∧ t.files = after ∧
      (∀ other, other ≠ client → t.desks other = s.desks other) ∧
      t.history = .returned client ⟨stamp, .put key value⟩ (.ok ()) ::
        .asked client ⟨stamp, .put key value⟩ (.rename (parent.join (temporaryName stamp))
          (pathFor (clients client).root key)) (.ok ()) after :: s.history := by
  have hserved : FileTree.answer (clients client).cwd (.rename (parent.join (temporaryName stamp))
      (pathFor (clients client).root key)) s.files = (.ok (), after) := by
    rw [FileTree.answer, hrename]
    rfl
  have hasked : Reachable clients files ((s.sit client ⟨some ⟨⟨stamp, .put key value⟩,
      .done (.ok ())⟩, rest⟩).tell after (.asked client ⟨stamp, .put key value⟩
        (.rename (parent.join (temporaryName stamp)) (pathFor (clients client).root key)) (.ok ())
        after)) := .tail h (.ask hdesk hserved)
  refine ⟨_, .tail hasked (.finish (by rw [State.tell_desks, State.sit_desks_self])), rfl,
    fun other hother => ?_, rfl⟩
  rw [State.tell_desks, State.sit_desks_of_ne _ hother, State.tell_desks,
    State.sit_desks_of_ne _ hother]

def Unmoved (client : ι) (history : List (Event ι)) : Prop :=
  ∀ errand source target answer files,
    .asked client errand (.rename source target) answer files ∉ history

omit [DecidableEq ι] in
theorem Alone.unmoved {errand : Errand} {t : State ι} (h : Alone Calm client errand s t) {a : ι}
    (hunmoved : Unmoved a s.history) : Unmoved a t.history := by
  intro other source target answer renamed hmem
  rcases h.asked _ hmem with hold | ⟨request, found, files, heq, hcalm⟩
  · exact hunmoved _ _ _ _ _ hold
  · cases heq
    exact hcalm source target rfl

/-! ## Two writes of one temporary file -/

section Clash

variable {a b : ι} {restA restB : List Errand} {front : List String} {last last' : String}

/-- Two processes write the same temporary file, one after the other, before either renames it:
the second value is in it. -/
theorem Reachable.write_twice (hne : a ≠ b)
    (ha : (clients a).errands = ⟨stamp, .put key value⟩ :: restA)
    (hb : (clients b).errands = ⟨stamp, .put other content⟩ :: restB)
    (hsplit : key.segments = front ++ [last]) (hsplit' : other.segments = front ++ [last'])
    (hstamp : Bounded stamp) (hkeys : ∀ client, Fileable (clients client).root keys)
    (hkey : keys key) (hother : keys other)
    (hroots : ∀ client, files.Reaches (clients client).cwd (clients client).root location)
    (hholds : Holds keys location files contents) :
    ∃ s made id mode, Reachable clients files s ∧ files.Keeps made ∧
      Holds keys location made contents ∧ made.HasDirs location front ∧
      made.Alters s.files (below location (front ++ [temporaryName stamp]))
        (some (.file id content mode)) ∧ s.files.Distinct location ∧
      s.desks a = ⟨some ⟨⟨stamp, .put key value⟩, settle (clients a).root stamp key
        (((clients a).root.seat front).joins front)⟩, restA⟩ ∧
      (∀ client, client ≠ a → client ≠ b → s.desks client = ⟨none, (clients client).errands⟩) ∧
      Unmoved a s.history := by
  have hempty (client : ι) := (FileTree.reaches_iff.1 (hroots client)).2.1
  have hspare := (hkeys a).fits_temporary (hempty a) hkey hsplit hstamp
  have hspare' := (hkeys b).fits_temporary (hempty b) hother hsplit' hstamp
  -- Both make the directories.
  have hopening : Reachable clients files (opening clients files) := .refl
  have hwaiting : (opening clients files).desks a = ⟨none, ⟨stamp, .put key value⟩ :: restA⟩ := by
    rw [← ha]
    rfl
  obtain ⟨s₁, h₁, hkept₁, hholds₁, -, hdesk₁, halone₁⟩ :=
    hopening.prepare hwaiting (hkeys a) hkey hholds (hroots a) hsplit
  obtain ⟨s₂, h₂, hkept₂, hholds₂, hdirs, hdesk₂, halone₂⟩ :=
    h₁.prepare ((halone₁.desks b hne.symm).trans (by rw [← hb]; rfl)) (hkeys b) hother hholds₁
      ((hroots b).mono hkept₁) hsplit'
  have hkept := hkept₁.trans hkept₂
  have hfree := FileTree.free_of_none (hholds₂.lookup_temporary (hkeys a) front stamp)
  -- Both write the temporary file.
  obtain ⟨once, id, mode, hwrite, halters, hdistinct⟩ := hspare.write
    (((hroots a).mono hkept).seat front) hdirs hholds₂.noLinks hfree value
  have honce := halters.keeps hfree
  have hfile := halters.lookup_self (below_ne_nil location (by simp))
  obtain ⟨twice, id', mode', hwrite', halters', hdistinct'⟩ := hspare'.write
    (((hroots b).mono (hkept.trans honce)).seat front) (hdirs.mono honce)
    (halters.noLinks hholds₂.noLinks (by simp)) (FileTree.free_of_file hfile) content
  rw [Path.joins_concat] at hwrite hwrite'
  obtain ⟨s₃, h₃, rfl, hdesk₃, halone₃⟩ :=
    h₂.write_temporary ((halone₂.desks a hne).trans hdesk₁) hwrite
  obtain ⟨s₄, h₄, rfl, -, halone₄⟩ :=
    h₃.write_temporary ((halone₃.desks b hne.symm).trans hdesk₂) hwrite'
  have hunmoved : Unmoved a (opening clients files).history := fun _ _ _ _ _ hmem => by cases hmem
  refine ⟨s₄, s₂.files, id', mode', h₄, hkept, hholds₂, hdirs, halters.again halters',
    hdistinct' (hdistinct hholds₂.distinct), (halone₄.desks a hne).trans hdesk₃,
    fun client hclientA hclientB => ?_,
    halone₄.unmoved (halone₃.unmoved (halone₂.unmoved (halone₁.unmoved hunmoved)))⟩
  rw [halone₄.desks client hclientB, halone₃.desks client hclientA, halone₂.desks client hclientB,
    halone₁.desks client hclientA]
  rfl

/-- When two processes have to put different values through one temporary file, one of them can
succeed with the value of the other in the place of its key. -/
theorem clash_mixes (hne : a ≠ b)
    (ha : (clients a).errands = ⟨stamp, .put key value⟩ :: restA)
    (hb : (clients b).errands = ⟨stamp, .put other content⟩ :: restB)
    (hfolder : key.segments.dropLast = other.segments.dropLast) (hvalues : value ≠ content)
    (hstamp : Bounded stamp) (hkeys : ∀ client, Fileable (clients client).root keys)
    (hkey : keys key) (hother : keys other)
    (hroots : ∀ client, files.Reaches (clients client).cwd (clients client).root location)
    (hholds : Holds keys location files contents) :
    ∃ s, Reachable clients files s ∧
      .returned a ⟨stamp, .put key value⟩ (.ok ()) ∈ s.history ∧
      ¬Placed clients a s.history stamp key value ∧
      Holds keys location s.files (Function.update contents key (some content)) ∧
      files.Keeps s.files ∧
      ∀ client, client ≠ a → client ≠ b → s.desks client = ⟨none, (clients client).errands⟩ := by
  obtain ⟨front, last, hsplit⟩ := key.exists_segments
  obtain ⟨front', last', hsplit'⟩ := other.exists_segments
  obtain rfl : front = front' := by simpa [hsplit, hsplit'] using hfolder
  obtain ⟨s, made, id, mode, hreach, hkept, hmade, hdirs, halters, hdistinct, hdesk, hothers,
    hunmoved⟩ := Reachable.write_twice hne ha hb hsplit hsplit' hstamp hkeys hkey hother hroots
      hholds
  obtain ⟨after, hrename, hvalue, hlast⟩ := hmade.rename_temporary (hkeys a)
    ((hroots a).mono hkept) hkey hsplit hdirs hstamp halters hdistinct
  obtain ⟨t, hlater, rfl, hothers', hhistory⟩ := hreach.rename_temporary hdesk hrename
  have hafter := hkept.trans hlast
  have hread := hvalue.read (hkeys a) ((hroots a).mono hafter) hkey (Function.update_self _ _ _)
  refine ⟨t, hlater, by rw [hhistory]; exact List.mem_cons_self, ?_, hvalue, hafter,
    fun client hclientA hclientB => ?_⟩
  · rintro ⟨temporary, renamed, hmem, hown⟩
    rw [hhistory] at hmem
    rcases List.mem_cons.1 hmem with heq | hmem
    · cases heq
    rcases List.mem_cons.1 hmem with heq | hmem
    · cases heq
      rw [hread] at hown
      exact hvalues (Except.ok.inj hown).symm
    · exact hunmoved _ _ _ _ _ hmem
  · rw [hothers' client hclientA, hothers client hclientA hclientB]

end Clash

omit [DecidableEq ι] in
/-- What other processes have done since does not put anything into place for a process. -/
theorem Placed.of_others {t : State ι} (h : Placed clients client t.history stamp key value)
    {later : ι} (hne : client ≠ later)
    (hothers : ∀ event ∈ t.history, event ∈ s.history ∨ event.client = later) :
    Placed clients client s.history stamp key value := by
  obtain ⟨temporary, renamed, hmem, hread⟩ := h
  rcases hothers _ hmem with hold | hown
  · exact ⟨temporary, renamed, hold, hread⟩
  · exact absurd hown hne

/-- Two processes with the same number, which make their first writes in one folder, and a
reader. -/
def clashingSites : Site → Client
  | .near => ⟨[], ⟨"store"⟩, [⟨⟨1, 0⟩, .put ⟨"r7/make/stdout"⟩ "a".toUTF8⟩]⟩
  | .far => ⟨[], ⟨"store"⟩, [⟨⟨1, 0⟩, .put ⟨"r7/make/stderr"⟩ "b".toUTF8⟩]⟩
  | .reader => ⟨[], ⟨"store"⟩, [⟨⟨2, 0⟩, .get ⟨"r7/make/stdout"⟩⟩]⟩

theorem clashingSites_known : ∀ site, ∀ errand ∈ (clashingSites site).errands, ∀ key,
    errand.call.key? = some key → key ∈ folderKeys := by
  rintro (_ | _ | _) <;> simp [clashingSites, StoreCall.key?, folderKeys]

theorem not_passed_clashing :
    ¬Passed clashingSites [.named "store"] plainFiles ⟨"r7/make/stdout"⟩ "b".toUTF8 := by
  rintro (⟨site, stamp, hmem⟩ | ⟨id, mode, hfound⟩)
  · cases site with
    | near =>
        have hvalue : "b".toUTF8 = "a".toUTF8 := by
          simp only [clashingSites, List.mem_singleton, Errand.mk.injEq, StoreCall.put.injEq]
            at hmem
          exact hmem.2.2
        exact absurd hvalue (by decide)
    | far => simp [clashingSites] at hmem
    | reader => simp [clashingSites] at hmem
  · rw [below, DirectoryStore.plainFiles_lookup _ (by simp [BlobKey.segments_ne_nil])] at hfound
    cases hfound

/-- The near process succeeds with the value of the far one in the place of its key, and the
reader gets it. -/
theorem clashing_sites_mix :
    Shares clashingSites [.named "store"] plainFiles ∧
      ∃ s, Reachable clashingSites plainFiles s ∧
        (.returned .reader ⟨⟨2, 0⟩, .get ⟨"r7/make/stdout"⟩⟩ (.ok (some "b".toUTF8)) ∈ s.history ∧
          ¬Passed clashingSites [.named "store"] plainFiles ⟨"r7/make/stdout"⟩ "b".toUTF8) ∧
        .returned .near ⟨⟨1, 0⟩, .put ⟨"r7/make/stdout"⟩ "a".toUTF8⟩ (.ok ()) ∈ s.history ∧
          ¬Placed clashingSites .near s.history ⟨1, 0⟩ ⟨"r7/make/stdout"⟩ "a".toUTF8 := by
  have hroots : ∀ site, plainFiles.Reaches (clashingSites site).cwd (clashingSites site).root
      [.named "store"] := by
    rintro (_ | _ | _) <;> exact DirectoryStore.plainFiles_reaches
  have hkeys : ∀ site, Fileable (clashingSites site).root (· ∈ folderKeys) := by
    rintro (_ | _ | _) <;> exact fileable_folderKeys
  have hempty : Holds (· ∈ folderKeys) [.named "store"] plainFiles fun _ => none :=
    DirectoryStore.holds_empty DirectoryStore.plainFiles_lookup
  have hout : (⟨"r7/make/stdout"⟩ : BlobKey) ∈ folderKeys := by decide
  have hne : Site.near ≠ Site.far := by decide
  have hnear : (clashingSites .near).errands =
      ⟨⟨1, 0⟩, .put ⟨"r7/make/stdout"⟩ "a".toUTF8⟩ :: [] := rfl
  have hfar : (clashingSites .far).errands =
      ⟨⟨1, 0⟩, .put ⟨"r7/make/stderr"⟩ "b".toUTF8⟩ :: [] := rfl
  obtain ⟨s, hreach, hreturned, hmissed, hholds, hkept, hothers⟩ :=
    clash_mixes hne hnear hfar (by decide) (by decide) ⟨by decide, by decide⟩ hkeys hout
      (by decide) hroots hempty
  have hfound := hholds.run_get (hkeys .reader) ((hroots .reader).mono hkept) hout
  rw [Function.update_self] at hfound
  have hget : FileTree.run (clashingSites .reader).cwd ((clashingSites .reader).program
      ⟨⟨2, 0⟩, .get ⟨"r7/make/stdout"⟩⟩) s.files = (.ok (some "b".toUTF8), s.files) := hfound
  obtain ⟨t, hreach', -, -, -, hgot, hkept', hadded⟩ :=
    hreach.perform hget (hothers .reader (by decide) (by decide))
  exact ⟨shares_of_holds hkeys clashingSites_known hroots hempty, t, hreach',
    ⟨hgot, not_passed_clashing⟩, hkept' _ hreturned,
    fun hplaced => hmissed (hplaced.of_others (by decide) hadded)⟩

end Sharing

end Handoff
