import EvoRuntime.Path.Dirname
import EvoRuntime.Path.Win32
import Mathlib.Logic.Function.Iterate

/-!
# `path.win32.dirname`

A path is read as its root and the names behind it. The root may be a drive, a separator
or the name of a share, and it is kept with the separator that follows it.

## Main result

`dirname_ascends`: every step up removes the last name, which is the one that `basename`
returns. The root is kept as it was written, and as many steps as there are names lead
to it.

## Proof strategy

The root of a path is also the one of all its beginnings that are not shorter than it
(`rootEnd_take`), and a directory is such a beginning (`dirname_eq`).
-/
namespace EvoRuntime.Path.Win32

open Lua Library

/-- The locals `rootEnd` and `offset` of `dirname`. -/
structure DirnameRoot where
  rootEnd : Int := -1
  offset : Nat := 0
  deriving DecidableEq, Repr

/-- The part of `dirname` in front of the loop. There is nothing to scan in a path that is
the name of a share. -/
def matchDirnameRoot (path : LuaString) : Option DirnameRoot :=
  let len := path.length
  let code := stringPrototypeCharCodeAt path 0
  if code.any isPathSeparator then
    if (stringPrototypeCharCodeAt path 1).any isPathSeparator then
      match matchUncRoot path with
      | some unc =>
        if unc.j = len then none
        -- The separator behind the name is a part of the root.
        else if unc.j ≠ unc.last then some ⟨unc.j + 1, unc.j + 1⟩
        else some ⟨1, 1⟩
      | none => some ⟨1, 1⟩
    else some ⟨1, 1⟩
  else if code.any isWindowsDeviceRoot ∧ stringPrototypeCharCodeAt path 1 = some CHAR_COLON then
    if len > 2 ∧ (stringPrototypeCharCodeAt path 2).any isPathSeparator then some ⟨3, 3⟩
    else some ⟨2, 2⟩
  else some {}

def dirnameScan : BackwardScan UInt8 DirnameScan :=
  { Path.dirnameScan with isSeparator := isPathSeparator }

def dirname (path : LuaString) : LuaString :=
  let len := path.length
  if len = 0 then ascii "."
  else if len = 1 then
    if (stringPrototypeCharCodeAt path 0).any isPathSeparator then path else ascii "."
  else
    match matchDirnameRoot path with
    | none => path
    | some ⟨rootEnd, offset⟩ =>
      let st := dirnameScan.run (fun i => stringPrototypeCharCodeAt path i) offset len {}
      if st.endIndex = -1 then
        if rootEnd = -1 then ascii "." else stringPrototypeSlice path 0 rootEnd
      else stringPrototypeSlice path 0 st.endIndex

example : dirname (ascii "c:foo\\bar\\") = ascii "c:foo" := by decide

example : dirname (ascii "\\\\unc\\share\\\\foo") = ascii "\\\\unc\\share\\" := by decide

/-! ## Root and names -/

/-- How many bytes belong to the root. -/
def rootEnd (path : LuaString) : Nat :=
  match matchDirnameRoot path with
  | none => path.length
  | some root => root.offset

def root (path : LuaString) : LuaString := path.take (rootEnd path)

/-- The components of a text, where separators next to each other count once. -/
def components (text : LuaString) : List LuaString :=
  (win32Separators.split text).filter (· ≠ [])

/-- The names behind the root. -/
def names (path : LuaString) : List LuaString := components (path.drop (rootEnd path))

/-! ## Shares -/

/-- A name of a share with what follows it: the server, separators and the rest. -/
structure Share (server between behind : LuaString) : Prop where
  server_nonempty : server ≠ []
  server_clean : ∀ c ∈ server, isPathSeparator c = false
  between_nonempty : between ≠ []
  between_separates : ∀ c ∈ between, isPathSeparator c = true
  starts : ∃ c rest, behind = c :: rest ∧ isPathSeparator c = false

theorem takeWhile_clean {clean behind : LuaString} {p : UInt8 → Bool} (all : ∀ c ∈ clean, p c = true)
    (stops : ∀ c, behind.head? = some c → p c = false) :
    (clean ++ behind).takeWhile p = clean := by
  rw [List.takeWhile_append_of_pos all]
  cases behind with
  | nil => simp
  | cons c rest => simp [stops c rfl]

variable {server between behind : LuaString}

/-- The three loops find the three parts. -/
theorem Share.found (share : Share server between behind) (a b : UInt8) :
    ∃ firstPart, matchUncRoot (a :: b :: (server ++ (between ++ behind))) =
      some ⟨firstPart, 2 + server.length + between.length,
        2 + server.length + between.length +
          (behind.takeWhile fun code => !isPathSeparator code).length⟩ := by
  obtain ⟨c, rest, starts, other⟩ := share.starts
  generalize whole : a :: b :: (server ++ (between ++ behind)) = path
  have length_path : path.length = 2 + server.length + between.length + behind.length := by
    simp only [← whole, List.length_cons, List.length_append]
    omega
  have some_server := List.length_pos_iff.mpr share.server_nonempty
  have some_between := List.length_pos_iff.mpr share.between_nonempty
  have some_behind : 0 < behind.length := by simp [starts]
  have taken : ((server ++ (between ++ behind)).takeWhile fun code => !isPathSeparator code) =
      server := by
    apply takeWhile_clean
    · intro d member
      rw [share.server_clean d member, Bool.not_false]
    · intro d head
      obtain ⟨e, seps, rfl⟩ := List.exists_cons_of_ne_nil share.between_nonempty
      cases head
      rw [share.between_separates d List.mem_cons_self, Bool.not_true]
  have j₁ : skipWhile (fun code => !isPathSeparator code) path (path.length - 2) 2 =
      2 + server.length := by
    rw [skipWhile_eq, ← whole]
    exact congrArg (2 + ·.length) taken
  have drop₁ : path.drop (2 + server.length) = between ++ behind := by
    rw [← whole, ← List.drop_drop]
    exact List.drop_left
  have j₂ : skipWhile isPathSeparator path (path.length - (2 + server.length)) (2 + server.length) =
      2 + server.length + between.length := by
    rw [skipWhile_eq, drop₁, takeWhile_clean share.between_separates]
    intro d head
    rw [starts] at head
    cases head
    exact other
  have drop₂ : path.drop (2 + server.length + between.length) = behind := by
    rw [← List.drop_drop, drop₁, List.drop_left]
  unfold matchUncRoot
  simp only [j₁, j₂]
  rw [if_pos ⟨by omega, by omega⟩, if_pos ⟨by omega, by omega⟩, skipWhile_eq, drop₂]
  exact ⟨_, rfl⟩

/-- Whatever is found consists of these parts. -/
theorem exists_share {a b : UInt8} {text : LuaString} {unc : UncRoot}
    (found : matchUncRoot (a :: b :: text) = some unc) :
    ∃ server between behind, Share server between behind ∧ text = server ++ (between ++ behind) := by
  generalize whole : a :: b :: text = path at found
  have drop₀ : path.drop 2 = text := by rw [← whole]; rfl
  unfold matchUncRoot at found
  dsimp only at found
  split at found
  next first =>
    split at found
    next second =>
      have j₁ := skipWhile_eq (fun code => !isPathSeparator code) path 2
      have drop₁ := skipWhile_drop (fun code => !isPathSeparator code) path 2
      rw [drop₀] at j₁ drop₁
      generalize skipWhile (fun code => !isPathSeparator code) path (path.length - 2) 2 = j at *
      have j₂ := skipWhile_eq isPathSeparator path j
      have drop₂ := skipWhile_drop isPathSeparator path j
      rw [drop₁] at j₂ drop₂
      generalize skipWhile isPathSeparator path (path.length - j) j = k at *
      refine ⟨text.takeWhile fun code => !isPathSeparator code,
        (text.dropWhile fun code => !isPathSeparator code).takeWhile isPathSeparator,
        (text.dropWhile fun code => !isPathSeparator code).dropWhile isPathSeparator,
        ⟨?_, ?_, ?_, fun c member => List.mem_takeWhile_imp member, ?_⟩, ?_⟩
      · intro empty
        rw [empty] at j₁
        exact first.2 j₁
      · intro c member
        simpa using List.mem_takeWhile_imp member
      · intro empty
        rw [empty] at j₂
        exact second.2 j₂
      · have inside : path.drop k ≠ [] := by
          intro past
          have := List.drop_eq_nil_iff.mp past
          omega
        rw [drop₂] at inside
        obtain ⟨c, rest, starts⟩ := List.exists_cons_of_ne_nil inside
        refine ⟨c, rest, starts, ?_⟩
        have stopped := List.head?_dropWhile_not isPathSeparator
          (text.dropWhile fun code => !isPathSeparator code)
        rw [starts] at stopped
        simpa using stopped
      · rw [List.takeWhile_append_dropWhile, List.takeWhile_append_dropWhile]
    next => cases found
  next => cases found

/-! ## The root of a path -/

/-- Two separators and the name of a share. -/
def NamesShare (path : LuaString) : Prop :=
  ∃ a b server between behind, isPathSeparator a = true ∧ isPathSeparator b = true ∧
    Share server between behind ∧ path = a :: b :: (server ++ (between ++ behind))

variable {path : LuaString}

theorem NamesShare.append (names : NamesShare path) (text : LuaString) : NamesShare (path ++ text) := by
  obtain ⟨a, b, server, between, behind, first, second, share, rfl⟩ := names
  refine ⟨a, b, server, between, behind ++ text, first, second, { share with starts := ?_ }, by simp⟩
  obtain ⟨c, rest, rfl, other⟩ := share.starts
  exact ⟨c, rest ++ text, rfl, other⟩

/-- A separator behind the name belongs to the root. -/
theorem rootEnd_share {a b : UInt8} (first : isPathSeparator a = true)
    (second : isPathSeparator b = true) (share : Share server between behind) :
    rootEnd (a :: b :: (server ++ (between ++ behind))) =
      2 + server.length + between.length +
        (behind.takeWhile fun code => !isPathSeparator code).length +
        if (behind.dropWhile fun code => !isPathSeparator code) = [] then 0 else 1 := by
  obtain ⟨firstPart, found⟩ := share.found a b
  obtain ⟨c, rest, starts, other⟩ := share.starts
  have split : (behind.takeWhile fun code => !isPathSeparator code).length +
      (behind.dropWhile fun code => !isPathSeparator code).length = behind.length := by
    rw [← List.length_append, List.takeWhile_append_dropWhile]
  have some_name : 0 < (behind.takeWhile fun code => !isPathSeparator code).length := by
    simp [starts, other]
  simp only [← List.length_eq_zero_iff]
  generalize (behind.takeWhile fun code => !isPathSeparator code).length = taken at *
  generalize (behind.dropWhile fun code => !isPathSeparator code).length = left at *
  unfold rootEnd matchDirnameRoot
  simp only [charCodeAt_zero, charCodeAt_one, List.getElem?_cons_zero, List.getElem?_cons_succ,
    Option.any_some, first, second, if_true, found, List.length_cons, List.length_append]
  by_cases last : left = 0
  · rw [if_pos (by omega), if_pos last]
    dsimp only
    omega
  · rw [if_neg (by omega), if_neg last, if_pos (by omega)]

theorem rootEnd_single {a : UInt8} (separates : isPathSeparator a = true) : rootEnd [a] = 1 := by
  simp [rootEnd, matchDirnameRoot, separates]

theorem rootEnd_separator (separator : startsWithSeparator path = true) (other : ¬NamesShare path) :
    rootEnd path = 1 := by
  match path with
  | [] => exact absurd separator Bool.false_ne_true
  | [a] =>
    exact rootEnd_single separator
  | a :: b :: rest =>
    have first : isPathSeparator a = true := separator
    unfold rootEnd matchDirnameRoot
    simp only [charCodeAt_zero, charCodeAt_one, List.getElem?_cons_zero, List.getElem?_cons_succ,
      Option.any_some, first, if_true]
    by_cases second : isPathSeparator b = true
    · cases found : matchUncRoot (a :: b :: rest) with
      | none => rw [if_pos second]
      | some unc =>
        obtain ⟨server, between, behind, share, rfl⟩ := exists_share found
        exact absurd ⟨a, b, server, between, behind, first, second, share, rfl⟩ other
    · rw [if_neg second]

theorem rootEnd_pos (separator : startsWithSeparator path = true) : 0 < rootEnd path := by
  by_cases names : NamesShare path
  · obtain ⟨a, b, server, between, behind, first, second, share, rfl⟩ := names
    rw [rootEnd_share first second share]
    omega
  · rw [rootEnd_separator separator names]
    exact Nat.one_pos

theorem rootEnd_drive (drive : startsWithDrive path = true) :
    rootEnd path = if path[2]?.any isPathSeparator then 3 else 2 := by
  obtain ⟨letter, rest, device, rfl⟩ := exists_drive drive
  have other : isPathSeparator letter = false := not_separator_of_drive drive
  unfold rootEnd matchDirnameRoot
  simp only [charCodeAt_zero, charCodeAt_one, charCodeAt_two, List.getElem?_cons_zero,
    List.getElem?_cons_succ, Option.any_some, other, device, Bool.false_eq_true, if_false, true_and,
    if_true, List.length_cons]
  cases rest with
  | nil => simp
  | cons c rest => by_cases third : isPathSeparator c = true <;> simp [third]

theorem rootEnd_none (separator : startsWithSeparator path = false)
    (drive : startsWithDrive path = false) : rootEnd path = 0 := by
  match path with
  | [] => rfl
  | [a] =>
    have first : isPathSeparator a = false := separator
    simp [rootEnd, matchDirnameRoot, first]
  | a :: b :: rest =>
    have first : isPathSeparator a = false := separator
    have device : ¬(isWindowsDeviceRoot a = true ∧ b = CHAR_COLON) := by
      simpa [startsWithDrive] using drive
    simp [rootEnd, matchDirnameRoot, first, device]

theorem rootEnd_le (path : LuaString) : rootEnd path ≤ path.length := by
  by_cases separator : startsWithSeparator path = true
  · by_cases names : NamesShare path
    · obtain ⟨a, b, server, between, behind, first, second, share, rfl⟩ := names
      rw [rootEnd_share first second share]
      have split : (behind.takeWhile fun code => !isPathSeparator code).length +
          (behind.dropWhile fun code => !isPathSeparator code).length = behind.length := by
        rw [← List.length_append, List.takeWhile_append_dropWhile]
      simp only [List.length_cons, List.length_append]
      split_ifs with last
      · omega
      · have some_ := List.length_pos_iff.mpr last
        omega
    · rw [rootEnd_separator separator names]
      cases path with
      | nil => exact absurd separator Bool.false_ne_true
      | cons a rest => simp
  · by_cases drive : startsWithDrive path = true
    · rw [rootEnd_drive drive]
      obtain ⟨letter, rest, -, rfl⟩ := exists_drive drive
      cases rest with
      | nil => simp
      | cons c rest => split_ifs <;> simp
    · rw [rootEnd_none (eq_false_of_ne_true separator) (eq_false_of_ne_true drive)]
      exact Nat.zero_le _

/-- The name of the share ends in front of the separator `c`. -/
theorem rootEnd_share_name {a b c : UInt8} {name rest : LuaString} (first : isPathSeparator a = true)
    (second : isPathSeparator b = true) (share : Share server between (name ++ c :: rest))
    (clean : ∀ d ∈ name, (!isPathSeparator d) = true) (separates : isPathSeparator c = true) :
    rootEnd (a :: b :: (server ++ (between ++ (name ++ c :: rest)))) =
      2 + server.length + between.length + name.length + 1 := by
  have stops : ∀ d, (c :: rest).head? = some d → (!isPathSeparator d) = false := by
    intro d head
    cases head
    rw [separates, Bool.not_true]
  have dropped : ((name ++ c :: rest).dropWhile fun code => !isPathSeparator code) = c :: rest := by
    rw [List.dropWhile_append_of_pos clean, List.dropWhile_cons_of_neg (by simp [separates])]
  rw [rootEnd_share first second share, takeWhile_clean clean stops, dropped,
    if_neg (List.cons_ne_nil c rest)]

/-- The name of the share may also be the end of the path. -/
theorem rootEnd_share_whole {a b : UInt8} (first : isPathSeparator a = true)
    (second : isPathSeparator b = true) (share : Share server between behind)
    (clean : ∀ c ∈ behind, (!isPathSeparator c) = true) :
    rootEnd (a :: b :: (server ++ (between ++ behind))) =
      (a :: b :: (server ++ (between ++ behind))).length := by
  rw [rootEnd_share first second share, List.takeWhile_eq_self_iff.mpr clean,
    List.dropWhile_eq_nil_iff.mpr clean, if_pos rfl]
  simp only [List.length_cons, List.length_append]
  omega

theorem Share.name_ends (share : Share server between behind) :
    (∀ c ∈ behind, (!isPathSeparator c) = true) ∨
      ∃ d later c rest, behind = d :: later ++ c :: rest ∧
        (∀ e ∈ d :: later, (!isPathSeparator e) = true) ∧ isPathSeparator c = true := by
  have clean : ∀ d ∈ behind.takeWhile fun code => !isPathSeparator code, (!isPathSeparator d) = true :=
    fun d member => List.mem_takeWhile_imp (p := fun code => !isPathSeparator code) member
  have stopped := List.head?_dropWhile_not (fun code => !isPathSeparator code) behind
  have parts := List.takeWhile_append_dropWhile (p := fun code => !isPathSeparator code) (l := behind)
  have some_ : (behind.takeWhile fun code => !isPathSeparator code) ≠ [] := by
    obtain ⟨d, later, starts, other⟩ := share.starts
    simp [starts, other]
  generalize (behind.takeWhile fun code => !isPathSeparator code) = name at *
  generalize (behind.dropWhile fun code => !isPathSeparator code) = rest at *
  obtain ⟨d, later, rfl⟩ := List.exists_cons_of_ne_nil some_
  cases rest with
  | nil => exact Or.inl (by rwa [← parts, List.append_nil])
  | cons c rest => exact Or.inr ⟨d, later, c, rest, parts.symm, clean, by simpa using stopped⟩

theorem rootEnd_take_share {a b : UInt8} (first : isPathSeparator a = true)
    (second : isPathSeparator b = true) (share : Share server between behind) {k : Nat}
    (above : rootEnd (a :: b :: (server ++ (between ++ behind))) ≤ k) :
    rootEnd ((a :: b :: (server ++ (between ++ behind))).take k) =
      rootEnd (a :: b :: (server ++ (between ++ behind))) := by
  rcases share.name_ends with clean | ⟨d, later, c, rest, rfl, clean, separates⟩
  -- The root is the whole path.
  · rw [rootEnd_share_whole first second share clean] at above
    rw [List.take_of_length_le above]
  · have here := rootEnd_share_name first second share clean separates
    rw [here] at above ⊢
    obtain ⟨m, rfl⟩ := Nat.exists_eq_add_of_le above
    have shorter : (a :: b :: (server ++ (between ++ (d :: later ++ c :: rest)))).take
        (2 + server.length + between.length + (d :: later).length + 1 + m) =
          a :: b :: (server ++ (between ++ (d :: later ++ c :: rest.take m))) := by
      have text : a :: b :: (server ++ (between ++ (d :: later ++ c :: rest))) =
          (a :: b :: (server ++ (between ++ (d :: later ++ [c])))) ++ rest := by simp
      have size : 2 + server.length + between.length + (d :: later).length + 1 =
          (a :: b :: (server ++ (between ++ (d :: later ++ [c])))).length := by
        simp only [List.length_cons, List.length_append, List.length_nil]
        omega
      rw [text, size, List.take_length_add_append]
      simp
    have share' : Share server between (d :: later ++ c :: rest.take m) :=
      { share with starts := ⟨d, _, rfl, by simpa using clean d List.mem_cons_self⟩ }
    rw [shorter, rootEnd_share_name first second share' clean separates]

/-- A beginning that is not shorter than the root has the same root. -/
theorem rootEnd_take {k : Nat} (above : rootEnd path ≤ k) :
    rootEnd (path.take k) = rootEnd path := by
  by_cases separator : startsWithSeparator path = true
  · obtain ⟨a, rest, rfl⟩ : ∃ a rest, path = a :: rest := by
      cases path with
      | nil => exact absurd separator Bool.false_ne_true
      | cons a rest => exact ⟨a, rest, rfl⟩
    by_cases names : NamesShare (a :: rest)
    · obtain ⟨a, b, server, between, behind, first, second, share, shape⟩ := names
      rw [shape] at above ⊢
      exact rootEnd_take_share first second share above
    · rw [rootEnd_separator separator names] at above ⊢
      obtain ⟨k, rfl⟩ := Nat.exists_eq_succ_of_ne_zero (Nat.pos_iff_ne_zero.mp above)
      refine rootEnd_separator separator fun shorter => names ?_
      have whole := shorter.append ((a :: rest).drop (k + 1))
      rwa [List.take_append_drop] at whole
  · have other := eq_false_of_ne_true separator
    by_cases drive : startsWithDrive path = true
    · rw [rootEnd_drive drive] at above ⊢
      obtain ⟨letter, rest, device, rfl⟩ := exists_drive drive
      obtain ⟨k, rfl⟩ : ∃ m, k = m + 2 := by
        refine ⟨k - 2, ?_⟩
        split_ifs at above <;> omega
      have shorter : startsWithDrive ((letter :: CHAR_COLON :: rest).take (k + 2)) = true := drive
      rw [rootEnd_drive shorter]
      cases k with
      | zero =>
        rw [if_neg (by simp), if_neg]
        intro third
        rw [if_pos third] at above
        omega
      | succ k => cases rest <;> rfl
    · have none_ := eq_false_of_ne_true drive
      rw [rootEnd_none other none_]
      have parts := List.take_append_drop k path
      apply rootEnd_none
      · cases start : path.take k with
        | nil => rfl
        | cons a rest =>
          rw [start] at parts
          rw [← parts] at other
          exact other
      · apply eq_false_of_ne_true
        intro shorter
        obtain ⟨letter, rest, device, start⟩ := exists_drive shorter
        rw [start] at parts
        rw [← parts] at drive
        exact drive (by simp [startsWithDrive, device])

/-! ## The directory -/

theorem visitAll_dirname (offset : Nat) (text : LuaString) (st : DirnameScan) :
    dirnameScan.visitAll offset text st =
      { st with matchedSlash := st.matchedSlash && text.isEmpty } := by
  induction text generalizing offset with
  | nil => simp [BackwardScan.visitAll]
  | cons c rest ih =>
    rw [BackwardScan.visitAll, ih]
    simp [dirnameScan, Path.dirnameScan]

/-- Behind a root, `rootEnd` and `offset` are the same. -/
theorem rootEnd_eq_offset {found : DirnameRoot} (matched : matchDirnameRoot path = some found) :
    found = {} ∨ 0 < found.offset ∧ found.rootEnd = found.offset := by
  unfold matchDirnameRoot at matched
  dsimp only at matched
  split_ifs at matched
  · split at matched
    · split_ifs at matched <;> cases matched <;> simp
    · cases matched
      simp
  all_goals cases matched; simp

theorem endIndex_scan {start : Nat} (p : Cut isPathSeparator start path) :
    (dirnameScan.run (fun i => stringPrototypeCharCodeAt path i) start path.length {}).endIndex =
      if p.front = [] then (-1 : Int) else ((p.root ++ p.front).length - 1 : Nat) := by
  have fresh : dirnameScan.fresh {} = true := rfl
  have run := Cut.run_eq dirnameScan p fresh fun some_ => by
    rw [visitAll_dirname]
    simp [dirnameScan, Path.dirnameScan, some_]
  rw [run, visitAll_dirname]
  split_ifs <;> rfl

theorem take_front {text front back : LuaString} (parts : text = front ++ back) :
    text.take front.length = front := by
  rw [parts, List.take_left]

theorem root_eq (p : Cut isPathSeparator (rootEnd path) path) : p.root = root path := by
  have text : path = p.root ++ (p.front ++ p.component ++ p.separators) := p.text.trans (by simp)
  rw [root, ← take_front text, p.root_length]

theorem root_eq_nil_iff : root path = [] ↔ rootEnd path = 0 := by
  rw [← List.length_eq_zero_iff, root, List.length_take, Nat.min_eq_left (rootEnd_le path)]

/-- What stands in front of the last name, without the separator in front of it. -/
theorem dirname_eq (p : Cut isPathSeparator (rootEnd path) path) :
    dirname path =
      if p.front = [] then if root path = [] then ascii "." else root path
      else root path ++ p.front.dropLast := by
  by_cases long : 2 ≤ path.length
  · unfold dirname
    dsimp only
    rw [if_neg (by omega), if_neg (by omega)]
    cases matched : matchDirnameRoot path with
    | none =>
      have whole : root path = path := by
        rw [root, rootEnd, matched, List.take_length]
      have nothing : p.front = [] := by
        have text := congrArg List.length p.text
        simp only [List.length_append, root_eq p, whole] at text
        exact List.length_eq_zero_iff.mp (by omega)
      have some_ : path ≠ [] := List.ne_nil_of_length_pos (by omega)
      rw [if_pos nothing, whole, if_neg some_]
    | some found =>
      have offset : rootEnd path = found.offset := by rw [rootEnd, matched]
      have same := rootEnd_eq_offset matched
      rw [← offset] at same
      dsimp only
      rw [← offset, endIndex_scan p]
      by_cases nothing : p.front = []
      · rw [if_pos nothing, if_pos rfl, if_pos nothing]
        rcases same with rfl | ⟨positive, same⟩
        · rw [if_pos rfl, if_pos (root_eq_nil_iff.mpr offset)]
        · have some_ : root path ≠ [] := fun empty => absurd (root_eq_nil_iff.mp empty) (by omega)
          rw [same, if_neg (by omega), if_neg some_]
          exact slice_range path 0 (rootEnd path)
      · have some_ := List.length_pos_iff.mpr nothing
        have text : path = p.root ++ p.front.dropLast ++
            (p.front.getLast nothing :: (p.component ++ p.separators)) := by
          refine p.text.trans ?_
          conv_lhs => rw [← List.dropLast_append_getLast nothing]
          simp
        have size : (p.root ++ p.front).length - 1 = (p.root ++ p.front.dropLast).length := by
          simp only [List.length_append, List.length_dropLast]
          omega
        have shorter : path.take ((p.root ++ p.front).length - 1) = root path ++ p.front.dropLast := by
          rw [size, ← root_eq p]
          exact take_front text
        rw [if_neg nothing, if_neg (by omega), if_neg nothing, ← shorter]
        exact slice_range path 0 _
  · have single : p.front = [] := by
      rcases p.front_ends with none_ | ⟨before, c, shape, separates⟩
      · exact none_
      -- The separator would be the whole path, and so its root.
      · have text := p.text
        rw [shape] at text
        have size := congrArg List.length text
        simp only [List.length_append, List.length_singleton] at size
        have whole : path = [c] := by
          have empty (part : LuaString) (short : part.length = 0) : part = [] :=
            List.length_eq_zero_iff.mp short
          rw [text, empty p.root (by omega), empty before (by omega), empty p.component (by omega),
            empty p.separators (by omega)]
          rfl
        have one : rootEnd path = 1 := by rw [whole, rootEnd_single separates]
        have both := p.root_length
        omega
    rw [if_pos single]
    match path with
    | [] => rfl
    | [a] =>
      by_cases separates : isPathSeparator a = true
      · simp [dirname, root, rootEnd_single separates, separates]
      · have none_ : root [a] = [] := root_eq_nil_iff.mpr (by simp [rootEnd, matchDirnameRoot, separates])
        rw [if_pos none_]
        simp [dirname, separates]
    | a :: b :: rest => exact absurd long (by simp)

/-! ## Names -/

@[simp] theorem components_nil : components [] = [] := by decide

theorem components_append (front back : LuaString) {c : UInt8} (separates : isPathSeparator c = true) :
    components (front ++ c :: back) = components front ++ components back := by
  rw [components, win32Separators.split_append front back separates, List.filter_append]
  rfl

theorem components_separators {separators : LuaString}
    (separate : ∀ c ∈ separators, isPathSeparator c = true) : components separators = [] := by
  induction separators with
  | nil => exact components_nil
  | cons c rest ih =>
    have first := components_append [] rest (separate c List.mem_cons_self)
    rw [List.nil_append] at first
    rw [first, components_nil, ih fun d member => separate d (List.mem_cons_of_mem c member)]
    rfl

theorem components_trailing (text : LuaString) {separators : LuaString}
    (separate : ∀ c ∈ separators, isPathSeparator c = true) :
    components (text ++ separators) = components text := by
  cases separators with
  | nil => rw [List.append_nil]
  | cons c rest =>
    rw [components_append text rest (separate c List.mem_cons_self),
      components_separators fun d member => separate d (List.mem_cons_of_mem c member), List.append_nil]

theorem components_clean {name : LuaString} (clean : ∀ c ∈ name, isPathSeparator c = false)
    (some_ : name ≠ []) : components name = [name] := by
  have alone : win32Separators.split name = [name] := List.splitOnP_eq_singleton clean
  simp [components, alone, some_]

theorem components_cons_ne_nil {c : UInt8} (rest : LuaString) (other : isPathSeparator c = false) :
    components (c :: rest) ≠ [] := by
  have first : win32Separators.split (c :: rest) =
      (win32Separators.split rest).modifyHead (List.cons c) := by
    rw [Separators.split, List.splitOnP_cons_eq_if_modifyHead, if_neg (by simp [win32Separators, other])]
    rfl
  rw [components, first]
  cases parts : win32Separators.split rest with
  | nil => exact absurd parts (List.splitOnP_ne_nil _ _)
  | cons s others => simp

theorem drop_rootEnd (p : Cut isPathSeparator (rootEnd path) path) :
    path.drop (rootEnd path) = p.front ++ p.component ++ p.separators := by
  have text : path = p.root ++ (p.front ++ p.component ++ p.separators) := p.text.trans (by simp)
  calc path.drop (rootEnd path) = path.drop p.root.length := by rw [p.root_length]
    _ = (p.root ++ (p.front ++ p.component ++ p.separators)).drop p.root.length :=
        congrArg (List.drop p.root.length) text
    _ = p.front ++ p.component ++ p.separators := List.drop_left

/-- The names of a path are the ones in front of the last component, and that component. -/
theorem names_eq (p : Cut isPathSeparator (rootEnd path) path) :
    names path = components p.front.dropLast ++ if p.component = [] then [] else [p.component] := by
  rw [names, drop_rootEnd p, components_trailing _ p.separate]
  have last : components p.component = if p.component = [] then [] else [p.component] := by
    split_ifs with none_
    · rw [none_, components_nil]
    · exact components_clean p.clean none_
  rcases p.front_ends with none_ | ⟨before, c, shape, separates⟩
  · rw [none_, List.nil_append, last]
    rfl
  · have text : p.front ++ p.component = before ++ c :: p.component := by simp [shape]
    rw [text, components_append _ _ separates, last, shape, List.dropLast_concat]

/-! ## Going up -/

theorem length_root (path : LuaString) : (root path).length = rootEnd path := by
  rw [root, List.length_take, Nat.min_eq_left (rootEnd_le path)]

/-- A root with something behind it is a path of the same root. -/
theorem rooted {behind : LuaString} (beginning : root path ++ behind <+: path) :
    root (root path ++ behind) = root path ∧ names (root path ++ behind) = components behind := by
  have kept : rootEnd (root path ++ behind) = rootEnd path := by
    rw [List.prefix_iff_eq_take.mp beginning]
    refine rootEnd_take ?_
    rw [List.length_append, length_root]
    exact Nat.le_add_right _ _
  rw [root, names, kept, ← length_root path]
  exact ⟨List.take_left, by rw [List.drop_left]⟩

theorem rooted_root (path : LuaString) : root (root path) = root path ∧ names (root path) = [] := by
  have beginning : root path ++ [] <+: path := (List.append_nil _).symm ▸ List.take_prefix _ _
  have whole := rooted beginning
  rwa [List.append_nil, components_nil] at whole

/-- The cut behind the root. -/
def cutRoot (path : LuaString) : Cut isPathSeparator (rootEnd path) path :=
  cut isPathSeparator (rootEnd path) path (rootEnd_le path)

theorem dirname_top (none_ : names path = []) :
    dirname path = if root path = [] then ascii "." else root path := by
  have p := cutRoot path
  have parts := (names_eq p).symm.trans none_
  have empty : p.component = [] := by
    by_contra some_
    rw [if_neg some_] at parts
    exact List.append_ne_nil_of_right_ne_nil _ (List.cons_ne_nil _ _) parts
  rw [dirname_eq p, if_pos (p.front_empty empty)]

/-- Without a root, nothing is left above the first name. -/
theorem dirname_first (rootless : root path = []) (few : (names path).length ≤ 1) :
    dirname path = ascii "." := by
  have p := cutRoot path
  rw [dirname_eq p]
  rcases p.front_ends with none_ | ⟨before, c, shape, separates⟩
  · rw [if_pos none_, if_pos rootless]
  · exfalso
    have some_ : p.component ≠ [] := fun empty => by
      rw [p.front_empty empty] at shape
      exact List.append_ne_nil_of_right_ne_nil _ (List.cons_ne_nil _ _) shape.symm
    rw [names_eq p, if_neg some_, shape, List.dropLast_concat, List.length_append,
      List.length_singleton] at few
    have nothing : components before = [] := List.length_eq_zero_iff.mp (by omega)
    have text : path = before ++ c :: (p.component ++ p.separators) := by
      refine p.text.trans ?_
      rw [root_eq p, rootless, shape]
      simp
    have other : startsWithSeparator path = false := by
      apply eq_false_of_ne_true
      intro separator
      exact absurd (root_eq_nil_iff.mp rootless) (rootEnd_pos separator).ne'
    rw [text] at other
    cases before with
    | nil => exact Bool.false_ne_true (other.symm.trans separates)
    | cons d rest => exact components_cons_ne_nil rest other nothing

/-- One step up removes the last name. -/
theorem dirname_step (more : root path ≠ [] ∨ 1 < (names path).length) :
    root (dirname path) = root path ∧ names (dirname path) = (names path).dropLast ∧
      dirname path <+: path := by
  have p := cutRoot path
  have parts := names_eq p
  by_cases none_ : p.front = []
  · rw [none_, List.dropLast_nil, components_nil, List.nil_append] at parts
    have few : (names path).length ≤ 1 := by
      rw [parts]
      split_ifs <;> simp
    have some_ : root path ≠ [] := more.resolve_right (by omega)
    have nothing : (names path).dropLast = [] := by
      rw [← List.length_eq_zero_iff, List.length_dropLast]
      omega
    rw [dirname_eq p, if_pos none_, if_neg some_, nothing]
    exact ⟨(rooted_root path).1, (rooted_root path).2, List.take_prefix _ _⟩
  · have some_ : p.component ≠ [] := fun empty => none_ (p.front_empty empty)
    have beginning : root path ++ p.front.dropLast <+: path := by
      refine ⟨p.front.getLast none_ :: (p.component ++ p.separators), ?_⟩
      refine Eq.trans ?_ p.text.symm
      conv_rhs => rw [← List.dropLast_append_getLast none_]
      rw [root_eq p]
      simp
    rw [dirname_eq p, if_neg none_, parts, if_neg some_, List.dropLast_concat]
    exact ⟨(rooted beginning).1, (rooted beginning).2, beginning⟩

/-- The root alone says whether a path is absolute. -/
theorem isAbsolute_root (path : LuaString) : isAbsolute (root path) = isAbsolute path := by
  rw [isAbsolute_eq, isAbsolute_eq, root]
  by_cases separator : startsWithSeparator path = true
  · have positive := rootEnd_pos separator
    have kept : startsWithSeparator (path.take (rootEnd path)) = true := by
      rw [startsWithSeparator, List.head?_take, if_neg positive.ne']
      exact separator
    rw [separator, kept, Bool.true_or, Bool.true_or]
  · have other := eq_false_of_ne_true separator
    by_cases drive : startsWithDrive path = true
    · have size := rootEnd_drive drive
      obtain ⟨letter, rest, device, rfl⟩ := exists_drive drive
      cases rest with
      | nil => rw [size]; rfl
      | cons c rest =>
        rw [List.getElem?_cons_succ, List.getElem?_cons_succ, List.getElem?_cons_zero,
          Option.any_some] at size
        by_cases third : isPathSeparator c = true
        · rw [size, if_pos third]
          rfl
        · rw [size, if_neg third]
          simp [startsWithSeparator, startsWithDrive, third]
    · rw [rootEnd_none other (eq_false_of_ne_true drive), other, eq_false_of_ne_true drive]
      rfl

/-- Something behind the root stands behind a separator, or behind the drive alone. -/
theorem root_ends (below : rootEnd path < path.length) :
    rootEnd path = (if startsWithDrive path then 2 else 0) ∨
      ∃ before c, root path = before ++ [c] ∧ isPathSeparator c = true ∧
        (if startsWithDrive path then 2 else 0) ≤ before.length := by
  by_cases separator : startsWithSeparator path = true
  · rw [not_drive_of_separator separator, if_neg Bool.false_ne_true]
    by_cases names : NamesShare path
    · obtain ⟨a, b, server, between, behind, first, second, share, rfl⟩ := names
      rcases share.name_ends with clean | ⟨d, later, c, rest, rfl, clean, separates⟩
      · exact absurd below (rootEnd_share_whole first second share clean).not_lt
      · refine Or.inr ⟨a :: b :: (server ++ (between ++ d :: later)), c, ?_, separates, Nat.zero_le _⟩
        have size : rootEnd (a :: b :: (server ++ (between ++ (d :: later ++ c :: rest)))) =
            (a :: b :: (server ++ (between ++ d :: later)) ++ [c]).length := by
          rw [rootEnd_share_name first second share clean separates]
          simp only [List.length_cons, List.length_append, List.length_nil]
          omega
        have text : a :: b :: (server ++ (between ++ (d :: later ++ c :: rest))) =
            (a :: b :: (server ++ (between ++ d :: later)) ++ [c]) ++ rest := by simp
        rw [root, size, take_front text]
    · have one := rootEnd_separator separator names
      cases path with
      | nil => exact absurd separator Bool.false_ne_true
      | cons a rest => exact Or.inr ⟨[], a, by rw [root, one]; rfl, separator, Nat.zero_le _⟩
  · have other := eq_false_of_ne_true separator
    by_cases drive : startsWithDrive path = true
    · have size := rootEnd_drive drive
      rw [drive, if_pos rfl]
      by_cases third : path[2]?.any isPathSeparator = true
      · rw [if_pos third] at size
        obtain ⟨letter, rest, device, rfl⟩ := exists_drive drive
        cases rest with
        | nil => cases third
        | cons c rest =>
          exact Or.inr ⟨[letter, CHAR_COLON], c, by rw [root, size]; rfl, third, Nat.le_refl 2⟩
      · exact Or.inl (size.trans (if_neg third))
    · have none_ := eq_false_of_ne_true drive
      rw [none_, if_neg Bool.false_ne_true]
      exact Or.inl (rootEnd_none other none_)

/-- A component behind the root is also the last one behind the drive. -/
theorem basename_component (p : Cut isPathSeparator (rootEnd path) path) (some_ : p.component ≠ []) :
    basename path = p.component := by
  have below : rootEnd path < path.length := by
    have size := congrArg List.length p.text
    have positive := List.length_pos_iff.mpr some_
    simp only [List.length_append, p.root_length] at size
    omega
  rw [basename_eq]
  rcases root_ends below with same | ⟨before, c, shape, separates, above⟩
  · rw [← same]
    exact basenameFrom_none p
  · generalize (if startsWithDrive path then 2 else 0) = start at *
    let q : Cut isPathSeparator start path :=
      { root := before.take start
        front := before.drop start ++ [c] ++ p.front
        component := p.component
        separators := p.separators
        text := by
          refine p.text.trans ?_
          rw [root_eq p, shape]
          simp only [← List.append_assoc, List.take_append_drop]
        root_length := by rw [List.length_take, Nat.min_eq_left above]
        separate := p.separate
        clean := p.clean
        front_ends := by
          right
          rcases p.front_ends with none_ | ⟨before', c', shape', separates'⟩
          · exact ⟨_, c, by rw [none_, List.append_nil], separates⟩
          · exact ⟨before.drop start ++ [c] ++ before', c', by rw [shape', List.append_assoc _ before'],
              separates'⟩
        front_empty := fun empty => absurd empty some_ }
    exact basenameFrom_none q

theorem basename_eq_last (some_ : names path ≠ []) : some (basename path) = (names path).getLast? := by
  have p := cutRoot path
  have parts := names_eq p
  have proper : p.component ≠ [] := by
    intro empty
    rw [p.front_empty empty, if_pos empty, List.dropLast_nil, components_nil] at parts
    exact some_ parts
  rw [parts, if_neg proper, List.getLast?_append, List.getLast?_singleton, basename_component p proper]
  rfl

/-- What the steps up from a path lead to. -/
structure Ascends (path : LuaString) : Prop where
  last : names path ≠ [] → some (basename path) = (names path).getLast?
  up : ∀ n, root path ≠ [] ∨ n < (names path).length →
    root (dirname^[n] path) = root path ∧
      names (dirname^[n] path) = (names path).take ((names path).length - n) ∧
      dirname^[n] path <+: path ∧ isAbsolute (dirname^[n] path) = isAbsolute path
  top : ∀ n > (names path).length,
    dirname^[n] path = if root path = [] then ascii "." else root path

theorem dirname_ascends (path : LuaString) : Ascends path := by
  have up : ∀ n, root path ≠ [] ∨ n < (names path).length →
      root (dirname^[n] path) = root path ∧
        names (dirname^[n] path) = (names path).take ((names path).length - n) ∧
        dirname^[n] path <+: path := by
    intro n more
    induction n with
    | zero => simp
    | succ n ih =>
      obtain ⟨sameRoot, left, beginning⟩ := ih (more.imp_right Nat.lt_of_succ_lt)
      have size : (names (dirname^[n] path)).length = (names path).length - n := by
        rw [left, List.length_take]
        omega
      have further : root (dirname^[n] path) ≠ [] ∨ 1 < (names (dirname^[n] path)).length := by
        rw [sameRoot, size]
        exact more.imp_right fun below => by omega
      obtain ⟨sameRoot', left', beginning'⟩ := dirname_step further
      rw [Function.iterate_succ_apply']
      refine ⟨sameRoot'.trans sameRoot, ?_, beginning'.trans beginning⟩
      rw [left', List.dropLast_eq_take, size, left, List.take_take]
      congr 1
      omega
  constructor
  case last => exact basename_eq_last
  case up =>
    intro n more
    obtain ⟨sameRoot, left, beginning⟩ := up n more
    refine ⟨sameRoot, left, beginning, ?_⟩
    rw [← isAbsolute_root, sameRoot, isAbsolute_root]
  case top =>
    intro n above
    have single : dirname (ascii ".") = ascii "." := by decide
    have again : dirname (if root path = [] then ascii "." else root path) =
        if root path = [] then ascii "." else root path := by
      by_cases rootless : root path = []
      · rw [if_pos rootless, single]
      · obtain ⟨sameRoot, nothing⟩ := rooted_root path
        rw [if_neg rootless, dirname_top nothing, sameRoot, if_neg rootless]
    induction n with
    | zero => exact absurd above (Nat.not_lt_zero _)
    | succ n ih =>
      rw [Function.iterate_succ_apply']
      rcases Nat.lt_or_ge (names path).length n with more | few
      · rw [ih more, again]
      -- The steps before this one have removed all names.
      · obtain rfl : n = (names path).length := by omega
        by_cases rootless : root path = []
        · cases size : (names path).length with
          | zero => exact dirname_top (List.length_eq_zero_iff.mp size)
          | succ m =>
            obtain ⟨sameRoot, left, -⟩ := up m (Or.inr (by omega))
            have few : (names (dirname^[m] path)).length ≤ 1 := by
              rw [left, List.length_take]
              omega
            rw [Function.iterate_succ_apply', dirname_first (sameRoot.trans rootless) few, single,
              if_pos rootless]
        · obtain ⟨sameRoot, left, -⟩ := up (names path).length (Or.inl rootless)
          rw [Nat.sub_self, List.take_zero] at left
          rw [dirname_top left, sameRoot]

end EvoRuntime.Path.Win32
