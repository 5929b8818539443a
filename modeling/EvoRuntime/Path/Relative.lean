import EvoRuntime.Path.Comparing
import EvoRuntime.Path.Posix

/-!
# `path.posix.relative`

The code compares the two resolved paths byte by byte and remembers the last
slash that they share. Its loops are those of `Comparing` for paths behind their
first slash. The proof cuts both paths where their locations part: behind the last
shared slash the common text contains no other slash.
-/
namespace EvoRuntime.Path

open Lua Library

/-- What follows the comparison of the resolved paths. -/
def relativeResolved (from_ to_ : LuaString) : LuaString :=
  let fromStart : Nat := 1
  let toStart : Nat := 1
  let fromLen : Int := from_.length - fromStart
  let toLen : Int := to_.length - toStart
  let length := if fromLen < toLen then fromLen else toLen
  let (i, lastCommonSep) := comparePaths CHAR_FORWARD_SLASH from_ to_ fromStart toStart
    (length + 1).toNat 0 0 (-1)
  let rest (lastCommonSep : Int) :=
    climbOut CHAR_FORWARD_SLASH from_ (fromStart + lastCommonSep + 1).toNat from_.length ++
      stringPrototypeSlice to_ (toStart + lastCommonSep)
  if (i : Int) = length then
    if toLen > length then
      -- `from` is the base path of `to`.
      if stringPrototypeCharCodeAt to_ (toStart + i : Nat) = some CHAR_FORWARD_SLASH then
        stringPrototypeSlice to_ (toStart + i + 1)
      -- `from` is the root.
      else if i = 0 then stringPrototypeSlice to_ (toStart + i)
      else rest lastCommonSep
    else if fromLen > length then
      -- `to` is the base path of `from`.
      if stringPrototypeCharCodeAt from_ (fromStart + i : Nat) = some CHAR_FORWARD_SLASH then rest i
      -- `to` is the root.
      else if i = 0 then rest 0
      else rest lastCommonSep
    else rest lastCommonSep
  else rest lastCommonSep

def relative (host : Host) (from_ to_ : LuaString) : Except LuaError LuaString := do
  if from_ = to_ then return []
  let from_ ← resolve host from_
  let to_ ← resolve host to_
  if from_ = to_ then return []
  return relativeResolved from_ to_

example : relative ⟨false, ascii "/"⟩ (ascii "/foo/bar/baz") (ascii "/foo/bar/baz-quux") =
    .ok (ascii "../baz-quux") := by rfl

/-! ## The comparison -/

theorem lastSeparatorIn_cases (l : Nat) (text : LuaString) (found : Int)
    (before : ∃ k : Nat, found = (k : Int) - 1) :
    ∃ k : Nat, lastSeparatorIn CHAR_FORWARD_SLASH l text found = (k : Int) - 1 := by
  induction text generalizing l found with
  | nil => exact before
  | cons c rest ih =>
    refine ih (l + 1) _ ?_
    split
    · exact ⟨l + 1, by omega⟩
    · exact before

/-! ## Climbing -/

def ups (n : Nat) : List LuaString := List.replicate n segmentReading.up

theorem climb_eq (from_ text : LuaString) (start : Nat) (rest : from_.drop start = text)
    (inside : start ≤ from_.length) :
    climbOut CHAR_FORWARD_SLASH from_ start from_.length =
      posixSeparators.join (ups (text.count CHAR_FORWARD_SLASH + 1)) :=
  climbOut_eq posixSeparators from_ text start rest inside

/-! ## The two locations -/

/-- The result when the shared text is followed by the rest from byte `k` on. -/
def remainder (a b : LuaString) (k : Nat) : LuaString :=
  climbOut CHAR_FORWARD_SLASH (CHAR_FORWARD_SLASH :: a) (k + 1)
      (CHAR_FORWARD_SLASH :: a).length ++
    (CHAR_FORWARD_SLASH :: b).drop k

theorem remainder_eq (a b : LuaString) (lastCommonSep : Int) (k : Nat)
    (shared : lastCommonSep = (k : Int) - 1) :
    climbOut CHAR_FORWARD_SLASH (CHAR_FORWARD_SLASH :: a)
        (((1 : Nat) : Int) + lastCommonSep + 1).toNat (CHAR_FORWARD_SLASH :: a).length ++
      stringPrototypeSlice (CHAR_FORWARD_SLASH :: b) (((1 : Nat) : Int) + lastCommonSep) =
      remainder a b k := by
  have start : (((1 : Nat) : Int) + lastCommonSep + 1).toNat = k + 1 := by omega
  have cut : ((1 : Nat) : Int) + lastCommonSep = (k : Nat) := by omega
  rw [start, cut, slice_from, remainder]

theorem relativeResolved_eq (a b : LuaString) (i k : Nat) (lastCommonSep : Int)
    (compared : comparePaths CHAR_FORWARD_SLASH (CHAR_FORWARD_SLASH :: a) (CHAR_FORWARD_SLASH :: b) 1 1
      (min a.length b.length + 1) 0 0 (-1) = (i, lastCommonSep))
    (shared : lastCommonSep = (k : Int) - 1) :
    relativeResolved (CHAR_FORWARD_SLASH :: a) (CHAR_FORWARD_SLASH :: b) =
      if i = min a.length b.length then
        if min a.length b.length < b.length then
          if b[i]? = some CHAR_FORWARD_SLASH then b.drop (i + 1)
          else if i = 0 then b else remainder a b k
        else if min a.length b.length < a.length then
          if a[i]? = some CHAR_FORWARD_SLASH then remainder a b (i + 1)
          else if i = 0 then remainder a b 1 else remainder a b k
        else remainder a b k
      else remainder a b k := by
  have fromLen : ((CHAR_FORWARD_SLASH :: a).length : Int) - (1 : Nat) = a.length := by simp
  have toLen : ((CHAR_FORWARD_SLASH :: b).length : Int) - (1 : Nat) = b.length := by simp
  have length : (if (a.length : Int) < b.length then (a.length : Int) else b.length) =
      (min a.length b.length : Nat) := by
    split <;> omega
  have count : (((min a.length b.length : Nat) : Int) + 1).toNat = min a.length b.length + 1 := by
    omega
  have code (text : LuaString) :
      stringPrototypeCharCodeAt (CHAR_FORWARD_SLASH :: text) (1 + i : Nat) = text[i]? := by
    rw [charCodeAt_eq, Nat.add_comm, List.getElem?_cons_succ]
  have below : stringPrototypeSlice (CHAR_FORWARD_SLASH :: b) (((1 : Nat) : Int) + i + 1) =
      b.drop (i + 1) := by
    have index : ((1 : Nat) : Int) + i + 1 = (i + 2 : Nat) := by omega
    rw [index, slice_from, List.drop_succ_cons]
  unfold relativeResolved
  simp only [fromLen, toLen, length, count, compared, code, below]
  rw [remainder_eq a b lastCommonSep k shared, remainder_eq a b i (i + 1) (by omega),
    remainder_eq a b 0 1 (by omega)]
  simp only [Int.natCast_inj, gt_iff_lt, Int.ofNat_lt]
  -- The slice from the root on is the whole text.
  by_cases zero : i = 0
  · have whole : stringPrototypeSlice (CHAR_FORWARD_SLASH :: b) (((1 : Nat) : Int) + i) = b := by
      have index : ((1 : Nat) : Int) + i = (1 : Nat) := by omega
      rw [index, slice_from, List.drop_succ_cons, List.drop_zero]
    simp only [whole]
  · simp only [zero, if_false]

/-- The text of the shared names, each with the slash that follows it. -/
def leading (shared : List LuaString) : LuaString := shared.flatMap (· ++ [CHAR_FORWARD_SLASH])

theorem join_leading (shared : List LuaString) {names : List LuaString} (more : names ≠ []) :
    posixSeparators.join (shared ++ names) = leading shared ++ posixSeparators.join names :=
  join_leadingText shared more

theorem leading_concat (below : List LuaString) (top : LuaString) :
    leading (below ++ [top]) = leading below ++ top ++ [CHAR_FORWARD_SLASH] :=
  leadingText_concat (f := posixSeparators) below top

theorem drop_leading (shared : List LuaString) (text : LuaString) :
    (CHAR_FORWARD_SLASH :: (leading shared ++ text)).drop (leading shared).length =
      CHAR_FORWARD_SLASH :: text := by
  rcases List.eq_nil_or_concat' shared with rfl | ⟨below, top, rfl⟩
  · rfl
  · have shape : CHAR_FORWARD_SLASH :: (leading (below ++ [top]) ++ text) =
        (CHAR_FORWARD_SLASH :: (leading below ++ top)) ++ CHAR_FORWARD_SLASH :: text := by
      simp [leading_concat]
    rw [shape]
    exact List.drop_left' (by simp [leading_concat]; omega)

theorem count_slash_join {name : LuaString} {names : List LuaString} (named : Named (name :: names)) :
    (posixSeparators.join (name :: names)).count CHAR_FORWARD_SLASH = names.length :=
  count_join name names fun s member => (named s member).2

theorem head_join_ne {name : LuaString} {names : List LuaString} (named : Named (name :: names)) :
    (posixSeparators.join (name :: names)).head? ≠ some CHAR_FORWARD_SLASH ∧
      posixSeparators.join (name :: names) ≠ [] := by
  exact ⟨join_relative named.clean, fun empty => List.cons_ne_nil _ _ (join_eq_nil named.clean empty)⟩

/-- Two locations part inside of the first name that differs. -/
theorem parting_text {f t : LuaString} {fs ts : List LuaString} (fromNamed : Named (f :: fs))
    (toNamed : Named (t :: ts)) (differ : f ≠ t) :
    ∃ q a b, posixSeparators.join (f :: fs) = q ++ a ∧ posixSeparators.join (t :: ts) = q ++ b ∧
      a.head? ≠ b.head? ∧ CHAR_FORWARD_SLASH ∉ q ∧
      (a = [] → b.head? ≠ some CHAR_FORWARD_SLASH ∧ q ≠ []) ∧
      (b = [] → a.head? ≠ some CHAR_FORWARD_SLASH ∧ q ≠ []) :=
  parting_join fromNamed.clean toNamed.clean differ

theorem named_tail {shared names : List LuaString} (named : Named (shared ++ names)) : Named names :=
  fun s member => named s (List.mem_append_right _ member)

/-- Climbing out of the remaining names of `from`. -/
theorem climb_leading (shared : List LuaString) {name : LuaString} {names : List LuaString}
    (named : Named (name :: names)) :
    climbOut CHAR_FORWARD_SLASH
        (CHAR_FORWARD_SLASH :: (leading shared ++ posixSeparators.join (name :: names)))
        ((leading shared).length + 1)
        (CHAR_FORWARD_SLASH :: (leading shared ++ posixSeparators.join (name :: names))).length =
      posixSeparators.join (ups (names.length + 1)) := by
  rw [← count_slash_join named]
  refine climb_eq _ _ _ ?_ ?_
  · rw [List.drop_succ_cons, List.drop_left]
  · simp

/-- Neither location is inside of the other one. -/
theorem relativeResolved_apart (shared fs ts : List LuaString) (f t : LuaString)
    (fromNamed : Named (shared ++ f :: fs)) (toNamed : Named (shared ++ t :: ts)) (differ : f ≠ t) :
    relativeResolved (rooted (shared ++ f :: fs)) (rooted (shared ++ t :: ts)) =
      posixSeparators.join (ups (fs.length + 1) ++ t :: ts) := by
  obtain ⟨q, a, b, fromText, toText, heads, clean, fromEnd, toEnd⟩ :=
    parting_text (named_tail fromNamed) (named_tail toNamed) differ
  rw [rooted, rooted, join_leading shared (by simp), join_leading shared (by simp)]
  have stretch : comparePaths CHAR_FORWARD_SLASH
      (CHAR_FORWARD_SLASH :: (leading shared ++ posixSeparators.join (f :: fs)))
      (CHAR_FORWARD_SLASH :: (leading shared ++ posixSeparators.join (t :: ts))) 1 1
      (min (leading shared ++ posixSeparators.join (f :: fs)).length
        (leading shared ++ posixSeparators.join (t :: ts)).length + 1) 0 0 (-1) =
      ((leading shared ++ q).length, lastSeparatorIn CHAR_FORWARD_SLASH 0 (leading shared ++ q) (-1)) :=
    comparePaths_stretch (a := a) (b := b) (leading shared ++ q) _ (by simp [fromText])
      (by simp [toText]) heads (by simp only [fromText, toText, List.length_append]; omega)
  -- The last common slash is the one in front of the names that differ.
  have last : lastSeparatorIn CHAR_FORWARD_SLASH 0 (leading shared ++ q) (-1) =
      ((leading shared).length : Int) - 1 := by
    rw [lastSeparatorIn_append, lastSeparatorIn_clean _ _ _ clean]
    exact lastSeparatorIn_leadingText posixSeparators shared
  rw [last] at stretch
  -- From there on the code climbs out of `f` and appends `t`.
  have result : remainder (leading shared ++ posixSeparators.join (f :: fs))
      (leading shared ++ posixSeparators.join (t :: ts)) (leading shared).length =
      posixSeparators.join (ups (fs.length + 1) ++ t :: ts) := by
    rw [remainder, climb_leading shared (named_tail fromNamed), drop_leading]
    exact (join_append (by simp [ups]) (by simp)).symm
  -- The comparison ends behind `q`, where one of the paths may have ended too.
  have code (tail : LuaString) :
      (leading shared ++ (q ++ tail))[(leading shared ++ q).length]? = tail.head? := by
    rw [← List.append_assoc, List.getElem?_append_right (Nat.le_refl _), Nat.sub_self,
      List.head?_eq_getElem?]
  have size (tail : LuaString) : (leading shared ++ (q ++ tail)).length =
      (leading shared ++ q).length + tail.length := by
    simp [Nat.add_assoc]
  have inside (nonempty : q ≠ []) : (leading shared ++ q).length ≠ 0 := by
    simp [nonempty]
  rw [relativeResolved_eq _ _ _ _ _ stretch rfl, result, fromText, toText, code a, code b, size a,
    size b]
  split
  next ended =>
    split
    next longer =>
      have fromEnds : a = [] := List.length_eq_zero_iff.mp (by omega)
      rw [if_neg (fromEnd fromEnds).1, if_neg (inside (fromEnd fromEnds).2)]
    next =>
      split
      next longer =>
        have toEnds : b = [] := List.length_eq_zero_iff.mp (by omega)
        rw [if_neg (toEnd toEnds).1, if_neg (inside (toEnd toEnds).2)]
      next => rfl
  next => rfl

/-- A location and one below it share the whole text of the first. -/
theorem join_below (location : List LuaString) (name : LuaString) (names : List LuaString) :
    (location = [] ∧ posixSeparators.join (location ++ name :: names) =
        posixSeparators.join (name :: names)) ∨
    (posixSeparators.join (location ++ name :: names) = posixSeparators.join location ++
        CHAR_FORWARD_SLASH :: posixSeparators.join (name :: names)) := by
  rcases List.eq_nil_or_concat' location with rfl | ⟨below, top, rfl⟩
  · exact Or.inl ⟨rfl, rfl⟩
  · exact Or.inr (join_append (by simp) (by simp))

theorem comparePaths_shared (text more : LuaString) (nonempty : more ≠ []) :
    ∃ k : Nat,
      comparePaths CHAR_FORWARD_SLASH (CHAR_FORWARD_SLASH :: text) (CHAR_FORWARD_SLASH :: (text ++ more))
        1 1 (text.length + 1) 0 0 (-1) = (text.length, (k : Int) - 1) ∧
      comparePaths CHAR_FORWARD_SLASH (CHAR_FORWARD_SLASH :: (text ++ more)) (CHAR_FORWARD_SLASH :: text)
        1 1 (text.length + 1) 0 0 (-1) = (text.length, (k : Int) - 1) := by
  obtain ⟨k, found⟩ := lastSeparatorIn_cases 0 text (-1) ⟨0, rfl⟩
  have differ : more.head? ≠ ([] : LuaString).head? := mt List.head?_eq_none_iff.mp nonempty
  refine ⟨k, ?_, ?_⟩
  · rw [comparePaths_stretch (a := []) (b := more) text _ (by simp) (by simp) differ.symm (by omega), found]
  · rw [comparePaths_stretch (a := more) (b := []) text _ (by simp) (by simp) differ (by omega), found]

/-- The destination is inside of the start. -/
theorem relativeResolved_below (start ts : List LuaString) (t : LuaString)
    (toNamed : Named (start ++ t :: ts)) :
    relativeResolved (rooted start) (rooted (start ++ t :: ts)) =
      posixSeparators.join (t :: ts) := by
  obtain ⟨head, nonempty⟩ := head_join_ne (named_tail toNamed)
  rw [rooted, rooted]
  rcases join_below start t ts with ⟨rfl, text⟩ | text
  · obtain ⟨k, compared, -⟩ := comparePaths_shared [] _ nonempty
    have empty : posixSeparators.join [] = [] := rfl
    rw [text, empty, relativeResolved_eq [] _ _ k _ (by simpa using compared) rfl,
      if_pos (by simp), if_pos (by simpa using List.length_pos_iff.mpr nonempty),
      if_neg (by rwa [← List.head?_eq_getElem?]), if_pos rfl]
  · obtain ⟨k, compared, -⟩ := comparePaths_shared (posixSeparators.join start)
      (CHAR_FORWARD_SLASH :: posixSeparators.join (t :: ts)) (by simp)
    rw [text, relativeResolved_eq _ _ _ k _ (by simpa using compared) rfl, if_pos (by simp),
      if_pos (by simp), if_pos (by simp)]
    simp

/-- The start is inside of the destination. -/
theorem relativeResolved_above (goal fs : List LuaString) (f : LuaString)
    (fromNamed : Named (goal ++ f :: fs)) :
    relativeResolved (rooted (goal ++ f :: fs)) (rooted goal) =
      posixSeparators.join (ups (fs.length + 1)) := by
  have tailNamed := named_tail fromNamed
  obtain ⟨head, nonempty⟩ := head_join_ne tailNamed
  have positive := List.length_pos_iff.mpr nonempty
  rw [rooted, rooted]
  rcases join_below goal f fs with ⟨rfl, text⟩ | text
  · obtain ⟨k, -, compared⟩ := comparePaths_shared [] _ nonempty
    have empty : posixSeparators.join [] = [] := rfl
    rw [text, empty, relativeResolved_eq _ [] _ k _ (by simpa using compared) rfl,
      if_pos (by simp), if_neg (by simp), if_pos (by simpa using positive),
      if_neg (by rwa [← List.head?_eq_getElem?]), if_pos rfl, remainder]
    -- The destination is the root: climbing starts one byte later than elsewhere,
    -- but this byte is no slash.
    have skipped : (posixSeparators.join (f :: fs)).count CHAR_FORWARD_SLASH =
        ((posixSeparators.join (f :: fs)).drop 1).count CHAR_FORWARD_SLASH := by
      cases shape : posixSeparators.join (f :: fs) with
      | nil => rfl
      | cons c rest =>
        rw [shape, List.head?_cons, Ne, Option.some.injEq] at head
        rw [List.count_cons_of_ne head, List.drop_succ_cons, List.drop_zero]
    rw [climb_eq _ ((posixSeparators.join (f :: fs)).drop 1) _ (by simp)
      (by rw [List.length_cons]; omega), ← skipped,
      count_slash_join tailNamed]
    simp
  · obtain ⟨k, -, compared⟩ := comparePaths_shared (posixSeparators.join goal)
      (CHAR_FORWARD_SLASH :: posixSeparators.join (f :: fs)) (by simp)
    rw [text, relativeResolved_eq _ _ _ k _ (by simpa using compared) rfl, if_pos (by simp),
      if_neg (by simp), if_pos (by simp), if_pos (by simp), remainder]
    rw [climb_eq _ (posixSeparators.join (f :: fs)) _ (by simp) (by simp),
      count_slash_join tailNamed]
    simp

/-- The code after `resolve` computes the route between the two locations. -/
theorem relativeResolved_route (start goal : List LuaString) (startNamed : Named start)
    (goalNamed : Named goal) (differ : start ≠ goal) :
    relativeResolved (rooted start) (rooted goal) =
      posixSeparators.join (segmentReading.route start goal) := by
  obtain ⟨shared, start', goal', rfl, rfl, -, apart⟩ := exists_parting start goal
  rw [SegmentReading.route_append segmentReading shared start' goal' apart]
  cases start' with
  | nil =>
    cases goal' with
    | nil => exact absurd rfl differ
    | cons t ts =>
      rw [List.append_nil]
      exact relativeResolved_below shared ts t goalNamed
  | cons f fs =>
    cases goal' with
    | nil =>
      rw [List.append_nil, List.append_nil]
      exact relativeResolved_above shared fs f startNamed
    | cons t ts =>
      exact relativeResolved_apart shared fs ts f t startNamed goalNamed (apart f t rfl rfl)

/-- The route, as text, contains no empty segment and does not start at the root. -/
theorem enter_route (start goal : List LuaString) (startNamed : Named start)
    (goalNamed : Named goal) :
    enter start (posixSeparators.join (segmentReading.route start goal)) = goal := by
  have clean : posixSeparators.Clean (segmentReading.route start goal) := by
    intro s member
    rcases List.mem_append.mp member with up | name
    · rw [List.eq_of_mem_replicate up]
      decide
    · exact goalNamed.clean s (List.mem_of_mem_drop name)
  rw [enter_join clean]
  exact SegmentReading.walk_route segmentReading false start goal
    (fun s member => (startNamed s member).1) (fun s member => (goalNamed s member).1)

/-- Where `resolve` returns paths of locations, `relative` returns the route between them. -/
theorem relative_eq_route {host : Host} {cwd : LuaString}
    (resolved : ∀ arg rest, resolve host arg rest = .ok (rooted (locate cwd (arg :: rest))))
    (from_ to_ : LuaString) :
    relative host from_ to_ =
      .ok (posixSeparators.join (segmentReading.route (locate cwd [from_]) (locate cwd [to_]))) := by
  have fromNamed := locate_named cwd [from_]
  have toNamed := locate_named cwd [to_]
  unfold relative
  -- The shortcut for equal arguments is taken before anything is resolved.
  by_cases equal : from_ = to_
  · rw [if_pos equal, equal, SegmentReading.route_self]
    rfl
  · simp only [if_neg equal, resolved, bind, Except.bind, pure, Except.pure]
    -- The second shortcut compares the resolved paths.
    by_cases same : rooted (locate cwd [from_]) = rooted (locate cwd [to_])
    · rw [if_pos same, rooted_injective fromNamed toNamed same, SegmentReading.route_self]
      rfl
    · rw [if_neg same, relativeResolved_route _ _ fromNamed toNamed fun equal =>
        same (congrArg rooted equal)]

/-- `relative` is the route between the segments of the two resolved paths, and
resolving it from the start gives the destination. -/
theorem relative_spec (host : Host) (absolute : IsAbsolute host.cwd) (from_ to_ : LuaString) :
    ∃ start goal rel,
      resolve host from_ = .ok start ∧ resolve host to_ = .ok goal ∧
      relative host from_ to_ = .ok rel ∧
      (let F := segments start
       let T := segments goal
       let c := (commonPrefix F T).length
       rel = [CHAR_FORWARD_SLASH].intercalate
         (List.replicate (F.length - c) (ascii "..") ++ T.drop c)) ∧
      resolve host from_ [rel] = resolve host to_ := by
  obtain ⟨cwd, resolved⟩ := resolve_eq_locate host absolute
  have fromNamed := locate_named cwd [from_]
  have toNamed := locate_named cwd [to_]
  have arrive := enter_route (locate cwd [from_]) (locate cwd [to_]) fromNamed toNamed
  refine ⟨_, _, _, resolved from_ [], resolved to_ [], relative_eq_route resolved from_ to_, ?_, ?_⟩
  · simp only [segments_rooted fromNamed, segments_rooted toNamed]
    rfl
  · rw [resolved, resolved]
    refine congrArg (fun location => Except.ok (rooted location)) ?_
    exact arrive

theorem relative_spec_siblings :
    ∃ start goal rel,
      resolve ⟨false, ascii "/home"⟩ (ascii "/foo/bar/baz") = .ok start ∧
      resolve ⟨false, ascii "/home"⟩ (ascii "/foo/bar/baz-quux") = .ok goal ∧
      relative ⟨false, ascii "/home"⟩ (ascii "/foo/bar/baz") (ascii "/foo/bar/baz-quux") = .ok rel ∧
      (let F := segments start
       let T := segments goal
       let c := (commonPrefix F T).length
       rel = [CHAR_FORWARD_SLASH].intercalate
         (List.replicate (F.length - c) (ascii "..") ++ T.drop c)) ∧
      resolve ⟨false, ascii "/home"⟩ (ascii "/foo/bar/baz") [rel] =
        resolve ⟨false, ascii "/home"⟩ (ascii "/foo/bar/baz-quux") :=
  relative_spec _ (by decide) _ _

end EvoRuntime.Path
