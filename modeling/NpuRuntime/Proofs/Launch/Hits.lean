import NpuRuntime.Launch.Search
import NpuRuntime.Proofs.First
import NpuRuntime.Proofs.Query.Run
import NpuRuntime.Proofs.Trust.Canonical

/-! # The first hit decides
The runtime is the first name that is found anywhere, in the first directory that has it. Whether
it is trusted does not matter until then, and no other file is taken when it is not. -/
namespace NpuRuntime

namespace Trust

open Files

variable {h : Host} {text : String} {p real : Path}

/-- A file of at most 100 MiB that nobody else can change, below directories that nobody else can
change, and no link on the way. -/
structure TrustedFile (h : Host) (p : Path) : Prop where
  plain : IsPathText p.text
  file : ∃ n, Resolves h false p p n ∧ n.isFile = true ∧ IsSafe h n ∧ n.size ≤ 100 * (1024 * 1024)
  depth : p.length ≤ 99
  above : ∀ a ∈ p.ancestors, ∃ n, Resolves h false a a n ∧ IsSafe h n

/-- Under its own name a normal path is trusted exactly if it is such a file. -/
theorem realFile_text_iff (hp : IsNormal p) :
    realFile h p.text = .ok real ↔ real = p ∧ TrustedFile h p := by
  constructor
  · intro hv
    obtain ⟨q, n, -, hq, hnode, hsize, hchains⟩ := validate_eq_ok_iff.mp hv
    obtain ⟨rfl, hplain, -⟩ := (absolute_text_iff hp).mp hq
    obtain ⟨hr, hfile | ⟨hdirectory, -⟩, hsafe⟩ := checkNode_eq_ok_iff.mp hnode
    · obtain rfl := hr.unlinked rfl
      obtain ⟨w, hw, -⟩ := exists_walk_of_canonical hr.canonical
      obtain ⟨hdepth, habove⟩ := (checkAncestors_iff hw).mp (hchains rfl real (.inl rfl))
      refine ⟨rfl, hplain,
        ⟨n, hr, hfile, hsafe, checkSize_eq_ok_iff.mp hsize hfile 100 rfl⟩, hdepth, fun a ha => ?_⟩
      obtain ⟨d, m, hm, hsafe⟩ := habove a ha
      obtain rfl := hm.unlinked rfl
      exact ⟨m, hm, hsafe⟩
    · cases hdirectory
  · rintro ⟨rfl, ht⟩
    obtain ⟨n, hr, hfile, hsafe, hsize⟩ := ht.file
    obtain ⟨w, hw, -⟩ := exists_walk_of_canonical hr.canonical
    -- The kernel has looked the last name up, so it is not too long.
    have hlast (last) (hlast : last ∈ real.getLast?) : last.utf8ByteSize < 256 :=
      Nat.lt_succ_of_le (size_le_of_walk (walk_of_ofPath hw) last (List.mem_of_mem_getLast? hlast))
    have hnamed : absolute h real.text = .ok real :=
      (absolute_text_iff hp).mpr ⟨rfl, ht.plain, hlast⟩
    have hnode : checkNode h real false false = .ok (real, n) :=
      checkNode_eq_ok_iff.mpr ⟨hr, .inl hfile, hsafe⟩
    have habove : checkAncestors h false real = .ok () :=
      (checkAncestors_iff hw).mpr ⟨ht.depth, fun a ha => ⟨a, ht.above a ha⟩⟩
    refine validate_eq_ok_iff.mpr ⟨real, n, rfl, hnamed, hnode, checkSize_eq_ok_iff.mpr ?_,
      fun _ q hq => ?_⟩
    · rintro - mb ⟨⟩
      exact hsize
    · rwa [or_self_iff.mp hq]

/-- Where a text leads is a normal path, if the current directory is one. -/
theorem isNormal_of_canonical (hcwd : ∀ cwd ∈ h.cwd, IsNormal cwd)
    (hc : h.canonical (Route.read text) = .ok real) : IsNormal real := by
  have hreached {base : Path} {w : Walk} {slash : Bool} (hbase : IsNormal base)
      (hw : h.files.walk h.effective maxLinks base (Route.read text).names slash [] = .ok w) :
      IsNormal w.reached :=
    (Files.leads_of_walk hw).forall_reached (fun _ hname hdot hup => ⟨hname, hdot, hup⟩) hbase
      fun _ => isName_of_mem_read
  obtain ⟨w, hw, hreal⟩ := bind_eq_ok.mp hc
  cases hreal
  unfold Host.walk Host.walkAs at hw
  split at hw
  · cases hw
  split at hw
  · cases hw
  split at hw
  · exact hreached (by simp [IsNormal]) hw
  · split at hw
    · cases hw
    · next cwd hhere => exact hreached (hcwd cwd hhere) hw

end Trust

namespace Launch

open Query Trust

variable {σ ω : Type} {h : Host} {cwd r : Path} {names : List String}
  {search name hit : String}

/-- The text leads to a regular file. It also leads whoever started this process, by his own rights,
to something that he may execute. -/
structure Executable (h : Host) (path : String) : Prop where
  text : Char.ofNat 0 ∉ path.toList
  file : ∃ n, h.node (Route.read path) = .ok n ∧ n.isFile = true
  permitted : ∃ n, h.nodeAs h.real (Route.read path) = .ok n ∧ n.permits h.real .execute = true

theorem isProgram_iff {path : String} : isProgram h path = true ↔ Executable h path := by
  unfold isProgram
  split
  · next hzero =>
    refine iff_of_false Bool.false_ne_true fun he => he.text ?_
    exact List.contains_iff_mem.mp hzero
  next hzero =>
  have htext : Char.ofNat 0 ∉ path.toList := mt List.contains_iff_mem.mpr hzero
  split
  · next seen real hseen hreal =>
    rw [Bool.and_eq_true]
    constructor
    · rintro ⟨hfile, hpermitted⟩
      exact ⟨htext, ⟨seen, hseen, hfile⟩, real, hreal, hpermitted⟩
    · rintro ⟨-, ⟨n, hn, hfile⟩, m, hm, hpermitted⟩
      cases hseen.symm.trans hn
      cases hreal.symm.trans hm
      exact ⟨hfile, hpermitted⟩
  · next hnone =>
    refine iff_of_false Bool.false_ne_true ?_
    rintro ⟨-, ⟨n, hn, -⟩, m, hm, -⟩
    exact hnone n m hn hm

/-- The program of a name in the first directory of a search list that holds one. -/
def Hit (h : Host) (search name hit : String) : Prop :=
  First (Text.pieces ':' search) (fun dir path =>
    path = PathText.join (expandHome (h.value? "HOME") dir) name ∧ Executable h path) hit

/-- The hit for the first name that has one. -/
def FirstHit (h : Host) (names : List String) (search hit : String) : Prop :=
  First names (Hit h search) hit

/-- A name without slashes is sought in the directories of the search list. -/
theorem partCount_le_one (hname : '/' ∉ name.toList) : partCount name ≤ 1 := by
  have hpieces : Text.pieces '/' name = [name] := Text.pieces_of_not_mem hname
  have hhead : name.toList.head? ≠ some '/' := fun hs => hname (List.mem_of_head? hs)
  simp only [partCount, hpieces, Route.read]
  by_cases hdot : name = "."
  · simp [hdot]
  by_cases hempty : name = "" <;> simp [hdot, hempty, hhead]

theorem hit?_eq_some_iff (hname : '/' ∉ name.toList) :
    hit? h cwd search name = some hit ↔ Hit h search name hit := by
  rw [hit?, candidates, if_neg (Nat.not_lt.mpr (partCount_le_one hname)),
    List.find?_eq_findSome?_guard, List.findSome?_map]
  refine findSome?_eq_some_iff_first fun dir _ path => ?_
  rw [Function.comp_apply, Option.guard_eq_some_iff, ← isProgram_iff]
  constructor <;> rintro ⟨rfl, hprogram⟩ <;> exact ⟨rfl, hprogram⟩

theorem firstHit_iff (hnames : ∀ name ∈ names, '/' ∉ name.toList) :
    names.findSome? (hit? h cwd search) = some hit ↔ FirstHit h names search hit :=
  findSome?_eq_some_iff_first fun name hname _ => hit?_eq_some_iff (hnames name hname)

/-- The first hit alone says what the search comes to. -/
theorem find_of_firstHit (hnames : ∀ name ∈ names, '/' ∉ name.toList) (hsearch : search ≠ "")
    (hcwd : h.cwd = some cwd) (hhit : FirstHit h names search hit) :
    find h names search = match h.canonical (Route.read hit) with
      | .error e => .error (.ofSystem (.resolving hit) e)
      | .ok real => (realFile h real.text).mapError Failure.ofRejection := by
  have hfound : names.findSome? (hit? h cwd search) = some hit := (firstHit_iff hnames).mpr hhit
  cases hreal : h.canonical (Route.read hit) <;>
    simp only [find, if_neg hsearch, hcwd, hfound, hreal]

theorem exists_firstHit_of_find (hnames : ∀ name ∈ names, '/' ∉ name.toList)
    (hfind : find h names search = .ok r) :
    search ≠ "" ∧ h.cwd ≠ none ∧ ∃ hit, FirstHit h names search hit := by
  unfold find at hfind
  split at hfind
  · cases hfind
  next hsearch =>
  split at hfind
  · cases hfind
  next cwd hcwd =>
  split at hfind
  · cases hfind
  next hit hhit =>
  exact ⟨hsearch, by simp [hcwd], hit, (firstHit_iff hnames).mp hhit⟩

theorem find_eq_ok_iff_of_firstHit (hnames : ∀ name ∈ names, '/' ∉ name.toList)
    (hcwd : ∀ cwd ∈ h.cwd, IsNormal cwd) (hsearch : search ≠ "") (hhere : h.cwd ≠ none)
    (hhit : FirstHit h names search hit) : find h names search = .ok r ↔
      h.canonical (Route.read hit) = .ok r ∧ TrustedFile h r := by
  obtain ⟨cwd, hhere⟩ := Option.ne_none_iff_exists'.mp hhere
  rw [find_of_firstHit hnames hsearch hhere hhit]
  cases hreal : h.canonical (Route.read hit) with
  | error e => simp
  | ok real =>
    dsimp only
    rw [mapError_eq_ok, realFile_text_iff (isNormal_of_canonical hcwd hreal), Except.ok.injEq]
    constructor <;> rintro ⟨rfl, htrusted⟩ <;> exact ⟨rfl, htrusted⟩

theorem findRuntime_result (h : Host) (names : List String) (search : String) (s : Run σ ω) :
    (outcome (findRuntime h names search) s).1 = find h names search := by
  rw [findRuntime, outcome_bind, outcome_ofExcept]
  cases find h names search <;> rfl

/-- What is found is the trusted file behind the first hit. If that is not trusted, or leads
nowhere, the search fails, whatever other names and directories there are. -/
theorem findRuntime_searches (hnames : ∀ name ∈ names, '/' ∉ name.toList)
    (hcwd : ∀ cwd ∈ h.cwd, IsNormal cwd) (s : Run σ ω) :
    (∀ r, (outcome (findRuntime h names search) s).1 = .ok r ↔ search ≠ "" ∧ h.cwd ≠ none ∧
      ∃ hit, FirstHit h names search hit ∧ h.canonical (Route.read hit) = .ok r ∧
        TrustedFile h r) ∧
    ∀ hit, FirstHit h names search hit →
      (¬∃ r, h.canonical (Route.read hit) = .ok r ∧ TrustedFile h r) →
        ∃ f, (outcome (findRuntime h names search) s).1 = .error f := by
  rw [findRuntime_result]
  constructor
  · intro r
    constructor
    · intro hfind
      obtain ⟨hsearch, hhere, hit, hhit⟩ := exists_firstHit_of_find hnames hfind
      exact ⟨hsearch, hhere, hit, hhit,
        (find_eq_ok_iff_of_firstHit hnames hcwd hsearch hhere hhit).mp hfind⟩
    · rintro ⟨hsearch, hhere, hit, hhit, hr⟩
      exact (find_eq_ok_iff_of_firstHit hnames hcwd hsearch hhere hhit).mpr hr
  · intro hit hhit hrejected
    cases hfind : find h names search with
    | error f => exact ⟨f, rfl⟩
    | ok r =>
      obtain ⟨hsearch, hhere, -⟩ := exists_firstHit_of_find hnames hfind
      have hr := (find_eq_ok_iff_of_firstHit hnames hcwd hsearch hhere hhit).mp hfind
      exact absurd ⟨r, hr⟩ hrejected

/-- A trusted program, and in a later directory a link to one with `mode`. -/
def programs (mode : Nat) : Host where
  files := ⟨[
    ([], Node.rootDirectory),
    (["opt"], Node.rootDirectory),
    (["opt", "runc"], ⟨.file ⟨[], 0⟩, 0o755, 0, 0⟩),
    (["bin"], Node.rootDirectory),
    (["bin", "docker-runc"], ⟨.link "/lib/docker-runc", 0o777, 0, 0⟩),
    (["lib"], Node.rootDirectory),
    (["lib", "docker-runc"], ⟨.file ⟨[], 0⟩, mode, 0, 0⟩)]⟩

theorem firstHit_programs {mode : Nat}
    (hnone : isProgram (programs mode) "/opt/docker-runc" = false)
    (hprogram : isProgram (programs mode) "/bin/docker-runc" = true) :
    FirstHit (programs mode) ["docker-runc", "runc"] "/opt:/bin" "/bin/docker-runc" := by
  have hpieces : Text.pieces ':' "/opt:/bin" = ["/opt", "/bin"] := by decide +kernel
  have hopt : PathText.join "/opt" "docker-runc" = "/opt/docker-runc" := by decide +kernel
  have hbin : PathText.join "/bin" "docker-runc" = "/bin/docker-runc" := by decide +kernel
  refine ⟨[], "docker-runc", ["runc"], rfl, ?_, by simp⟩
  refine ⟨["/opt"], "/bin", [], hpieces, ⟨hbin.symm, isProgram_iff.mp hprogram⟩, ?_⟩
  rintro dir hdir path ⟨rfl, hpath⟩
  obtain rfl := List.mem_singleton.mp hdir
  have hfound : isProgram (programs mode) "/opt/docker-runc" = true :=
    hopt ▸ isProgram_iff.mpr hpath
  rw [hnone] at hfound
  cases hfound

/-- The link counts, although the other program comes in an earlier directory. Where everybody may
write to what it leads to, the other program is trusted, but not taken. -/
theorem findRuntime_searches_programs :
    let search (mode : Nat) :=
      outcome (findRuntime (programs mode) ["docker-runc", "runc"] "/opt:/bin") ⟨(), (), [], []⟩
    (search 0o755).1 = .ok ["lib", "docker-runc"] ∧
      TrustedFile (programs 0o777) ["opt", "runc"] ∧ ∃ f, (search 0o777).1 = .error f := by
  have hnames : ∀ name ∈ ["docker-runc", "runc"], '/' ∉ name.toList := by decide
  have hcwd (mode : Nat) : ∀ cwd ∈ (programs mode).cwd, IsNormal cwd := by
    rintro cwd ⟨⟩
    simp [IsNormal]
  have hreal : ∀ mode ∈ [0o755, 0o777], (programs mode).canonical (Route.read "/bin/docker-runc") =
      .ok ["lib", "docker-runc"] := by
    decide +kernel
  have hrunc : (programs 0o777).canonical (Route.read "/opt/runc") = .ok ["opt", "runc"] := by
    decide +kernel
  have hlib : IsNormal ["lib", "docker-runc"] :=
    isNormal_of_canonical (hcwd 0o755) (hreal 0o755 (by decide))
  have hsafe : realFile (programs 0o755) (Path.text ["lib", "docker-runc"]) =
      .ok ["lib", "docker-runc"] := by
    decide +kernel
  have hother : realFile (programs 0o777) (Path.text ["opt", "runc"]) = .ok ["opt", "runc"] := by
    decide +kernel
  have hopen : realFile (programs 0o777) (Path.text ["lib", "docker-runc"]) ≠
      .ok ["lib", "docker-runc"] := by
    decide +kernel
  have hruncs : TrustedFile (programs 0o777) ["opt", "runc"] :=
    ((realFile_text_iff (isNormal_of_canonical (hcwd 0o777) hrunc)).mp hother).2
  have hfirst : FirstHit (programs 0o755) ["docker-runc", "runc"] "/opt:/bin" "/bin/docker-runc" :=
    firstHit_programs (by decide +kernel) (by decide +kernel)
  have hlater : FirstHit (programs 0o777) ["docker-runc", "runc"] "/opt:/bin" "/bin/docker-runc" :=
    firstHit_programs (by decide +kernel) (by decide +kernel)
  have htrusted : TrustedFile (programs 0o755) ["lib", "docker-runc"] :=
    ((realFile_text_iff hlib).mp hsafe).2
  refine ⟨((findRuntime_searches hnames (hcwd 0o755) _).1 _).mpr ⟨by decide, by decide, _, hfirst,
      hreal 0o755 (by decide), htrusted⟩, hruncs,
    (findRuntime_searches hnames (hcwd 0o777) _).2 _ hlater ?_⟩
  rintro ⟨r, hr, htrusted⟩
  cases (hreal 0o777 (by decide)).symm.trans hr
  exact hopen ((realFile_text_iff hlib).mpr ⟨rfl, htrusted⟩)

end Launch

end NpuRuntime
