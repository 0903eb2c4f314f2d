import Mathlib.Data.List.TakeWhile

/-!
# Subjects on the bus

The subjects that `topics` builds, the replacement of characters in
`SanitizeForSubject`, and how `ChannelBus` matches a subject with the pattern of
a subscription.
-/

namespace Subjects

/-- `strings.Split(s, ".")`. -/
def tokens (s : String) : List (List Char) := s.toList.splitOn '.'

/-- The loop of `matchSubject`, on what is left of the pattern and the subject. -/
def matchTokens : List (List Char) → List (List Char) → Bool
  | [], rest => rest.isEmpty
  | p :: ps, rest =>
    if p = ['>'] then !rest.isEmpty
    else
      match rest with
      | [] => false
      | t :: ts => if p ≠ ['*'] ∧ p ≠ t then false else matchTokens ps ts

def matchSubject (pattern subject : String) : Bool := matchTokens (tokens pattern) (tokens subject)

/-- What follows the first dot. -/
def afterDot (cs : List Char) : Option (List Char) :=
  match cs.dropWhile (· ≠ '.') with
  | [] => none
  | _ :: rest => some rest

/-- `parts[2]` of `strings.SplitN(s, ".", 3)`, if there are three parts. -/
def thirdPart (s : String) : Option String :=
  ((afterDot s.toList).bind afterDot).map String.ofList

/-- `parts[3]` of `strings.SplitN(s, ".", 4)`, if there are four parts. -/
def fourthPart (s : String) : Option String :=
  (((afterDot s.toList).bind afterDot).bind afterDot).map String.ofList

/-- A `strings.NewReplacer` that writes an underscore for each of the characters. -/
def replaceChars (cs : List Char) (s : String) : String :=
  String.ofList (s.toList.map fun c => if c ∈ cs then '_' else c)

def sanitizeForSubject (s : String) : String := replaceChars [' ', '.', ':', '*', '>', ';', '='] s

/-- The replacement in `ethernetip`. -/
def sanitizeTagForSubject (tag : String) : String := replaceChars ['.', ':', '[', ']'] tag

/-- The replacement in `opcua`. -/
def sanitizeNodeIDForSubject (nodeID : String) : String := replaceChars ['.', ';', '='] nodeID

/-- `strings.TrimPrefix(s, ".")`. -/
def trimDot (s : String) : String :=
  match s.toList with
  | '.' :: cs => String.ofList cs
  | _ => s

/-- The replacement in `snmp`. -/
def sanitizeOidForSubject (oid : String) : String := replaceChars ['.'] (trimDot oid)

def data (moduleID deviceID variableID : String) : String :=
  moduleID ++ ".data." ++ deviceID ++ "." ++ variableID

/-- The subjects of all values of a device. -/
def deviceWildcard (moduleID deviceID : String) : String :=
  moduleID ++ ".data." ++ deviceID ++ ".>"

/-- The subject of a device's batches. -/
def deviceData (moduleID deviceID : String) : String := moduleID ++ ".data." ++ deviceID

def command (moduleID variableID : String) : String := moduleID ++ ".command." ++ variableID

def commandWildcard (moduleID : String) : String := moduleID ++ ".command.>"

theorem not_mem_of_mem_splitOn {a : Char} {xs piece : List Char} (h : piece ∈ xs.splitOn a) :
    a ∉ piece := by
  induction xs generalizing piece with
  | nil =>
    rw [List.splitOn_nil, List.mem_singleton] at h
    simp [h]
  | cons x xs ih =>
    rw [List.splitOn_cons_eq_if_modifyHead] at h
    split at h
    · obtain rfl | h := List.mem_cons.mp h
      · simp
      · exact ih h
    next hx =>
      match hsplit : xs.splitOn a with
      | [] => exact absurd hsplit (List.splitOn_ne_nil a xs)
      | first :: rest =>
        rw [hsplit, List.modifyHead_cons] at h
        rw [hsplit] at ih
        obtain rfl | h := List.mem_cons.mp h
        · have hfirst := ih List.mem_cons_self
          simp only [List.mem_cons, not_or]
          exact ⟨fun he => hx (by simp [he]), hfirst⟩
        · exact ih (List.mem_cons_of_mem _ h)

theorem afterDot_append {cs : List Char} (h : '.' ∉ cs) (rest : List Char) :
    afterDot (cs ++ '.' :: rest) = some rest := by
  have hall : ∀ c ∈ cs, decide (c ≠ '.') = true := by
    intro c hc
    simp only [ne_eq, decide_not, Bool.not_eq_true', decide_eq_false_iff_not]
    rintro rfl
    exact h hc
  rw [afterDot, List.dropWhile_append_of_pos hall]
  rfl

/-- The tokens of a command subject are its module, the word and those of its variable. -/
theorem tokens_command {moduleID : String} (h : '.' ∉ moduleID.toList) (variableID : String) :
    tokens (command moduleID variableID) =
      moduleID.toList :: "command".toList :: tokens variableID := by
  have hchars : (command moduleID variableID).toList =
      moduleID.toList ++ '.' :: ("command".toList ++ '.' :: variableID.toList) := by
    simp [command]
  rw [tokens, hchars, List.splitOn_append_cons_self_of_not_mem h,
    List.splitOn_append_cons_self_of_not_mem (by decide)]
  rfl

/-- A module receives its commands, whatever the rest of the subject is. -/
theorem match_command {moduleID : String} (h : '.' ∉ moduleID.toList) (hne : moduleID ≠ ">")
    (variableID : String) :
    matchSubject (commandWildcard moduleID) (command moduleID variableID) = true := by
  have hwild : moduleID.toList ≠ ['>'] := by
    intro he
    exact hne (String.toList_injective he)
  have hpattern : commandWildcard moduleID = command moduleID ">" := by
    simp only [commandWildcard, command, String.append_assoc]
    rfl
  rw [matchSubject, hpattern, tokens_command h, tokens_command h]
  have hrest : tokens variableID ≠ [] := List.splitOn_ne_nil _ _
  have hgreater : tokens ">" = [['>']] := by decide
  simp [matchTokens, hwild, hgreater, hrest]

theorem thirdPart_command {moduleID : String} (h : '.' ∉ moduleID.toList) (variableID : String) :
    thirdPart (command moduleID variableID) = some variableID := by
  have hchars : (command moduleID variableID).toList =
      moduleID.toList ++ '.' :: ("command".toList ++ '.' :: variableID.toList) := by
    simp [command]
  rw [thirdPart, hchars, afterDot_append h, Option.bind_some, afterDot_append (by decide)]
  simp

/-- A character that is replaced does not stay. -/
theorem not_mem_replaceChars {c : Char} {cs : List Char} (hc : c ∈ cs) (hunder : c ≠ '_')
    (s : String) : c ∉ (replaceChars cs s).toList := by
  simp only [replaceChars, String.toList_ofList, List.mem_map, not_exists, not_and]
  intro d _ hd
  split at hd
  · exact hunder hd.symm
  next hnot =>
    subst hd
    exact hnot hc

/-- Two replacements agree on a string that has no character they treat differently. -/
theorem replaceChars_eq_iff (cs ds : List Char) (s : String) :
    replaceChars cs s = replaceChars ds s ↔
      ∀ c ∈ s.toList, c = '_' ∨ (c ∈ cs ↔ c ∈ ds) := by
  rw [replaceChars, replaceChars, String.ofList_inj, List.map_inj_left]
  refine forall₂_congr fun c _ => ?_
  by_cases hc : c ∈ cs
  · by_cases hd : c ∈ ds
    · simp [hc, hd]
    · simp [hc, hd, eq_comm]
  · by_cases hd : c ∈ ds
    · simp [hc, hd]
    · simp [hc, hd]

theorem not_mem_sanitize {c : Char} (hc : c ∈ [' ', '.', ':', '*', '>', ';', '=']) (s : String) :
    c ∉ (sanitizeForSubject s).toList := by
  refine not_mem_replaceChars hc ?_ s
  rintro rfl
  exact absurd hc (by decide)

theorem dot_not_mem_sanitize (s : String) : '.' ∉ (sanitizeForSubject s).toList :=
  not_mem_sanitize (by decide) s

/-- The fourth part of a data subject is its variable. -/
theorem fourthPart_data {moduleID deviceID : String} (hm : '.' ∉ moduleID.toList)
    (hd : '.' ∉ deviceID.toList) (variableID : String) :
    fourthPart (data moduleID deviceID variableID) = some variableID := by
  have hchars : (data moduleID deviceID variableID).toList =
      moduleID.toList ++ '.' :: ("data".toList ++ '.' :: (deviceID.toList ++ '.' ::
        variableID.toList)) := by
    simp [data]
  rw [fourthPart, hchars, afterDot_append hm, Option.bind_some, afterDot_append (by decide),
    Option.bind_some, afterDot_append hd]
  simp

/-- Without a dot there is nothing behind one. -/
theorem afterDot_of_not_mem {cs : List Char} (h : '.' ∉ cs) : afterDot cs = none := by
  have hnil : cs.dropWhile (· ≠ '.') = [] := by
    rw [List.dropWhile_eq_nil_iff]
    intro c hc
    simp only [ne_eq, decide_not, Bool.not_eq_true', decide_eq_false_iff_not]
    rintro rfl
    exact h hc
  rw [afterDot, hnil]

/-- The subject of a batch has no fourth part. -/
theorem fourthPart_deviceData {moduleID deviceID : String} (hm : '.' ∉ moduleID.toList)
    (hd : '.' ∉ deviceID.toList) : fourthPart (deviceData moduleID deviceID) = none := by
  have hchars : (deviceData moduleID deviceID).toList =
      moduleID.toList ++ '.' :: ("data".toList ++ '.' :: deviceID.toList) := by
    simp [deviceData]
  rw [fourthPart, hchars, afterDot_append hm, Option.bind_some, afterDot_append (by decide),
    Option.bind_some, afterDot_of_not_mem hd]
  rfl

/-- The tokens of a data subject are its module, the word, its device and those of its variable. -/
theorem tokens_data {moduleID deviceID : String} (hm : '.' ∉ moduleID.toList)
    (hd : '.' ∉ deviceID.toList) (variableID : String) :
    tokens (data moduleID deviceID variableID) =
      moduleID.toList :: "data".toList :: deviceID.toList :: tokens variableID := by
  have hchars : (data moduleID deviceID variableID).toList =
      moduleID.toList ++ '.' :: ("data".toList ++ '.' :: (deviceID.toList ++ '.' ::
        variableID.toList)) := by
    simp [data]
  rw [tokens, hchars, List.splitOn_append_cons_self_of_not_mem hm,
    List.splitOn_append_cons_self_of_not_mem (by decide),
    List.splitOn_append_cons_self_of_not_mem hd]
  rfl

/-- The pattern of a device has its tokens and the open end. -/
theorem tokens_deviceWildcard {moduleID deviceID : String} (hm : '.' ∉ moduleID.toList)
    (hd : '.' ∉ deviceID.toList) :
    tokens (deviceWildcard moduleID deviceID) =
      [moduleID.toList, "data".toList, deviceID.toList, ['>']] := by
  have hpattern : deviceWildcard moduleID deviceID = data moduleID deviceID ">" := by
    simp only [deviceWildcard, data, String.append_assoc]
    rfl
  have hgreater : tokens ">" = [['>']] := by decide
  rw [hpattern, tokens_data hm hd, hgreater]

/-- A single token that is no wildcard. -/
structure Plain (s : String) : Prop where
  dot : '.' ∉ s.toList
  star : s.toList ≠ ['*']
  greater : s.toList ≠ ['>']

theorem plain_sanitize (s : String) : Plain (sanitizeForSubject s) where
  dot := dot_not_mem_sanitize s
  star h := not_mem_sanitize (by decide : '*' ∈ _) s (h ▸ List.mem_singleton_self _)
  greater h := not_mem_sanitize (by decide : '>' ∈ _) s (h ▸ List.mem_singleton_self _)

/-- The subject of a batch has three tokens. -/
theorem tokens_deviceData {moduleID deviceID : String} (hm : '.' ∉ moduleID.toList)
    (hd : '.' ∉ deviceID.toList) :
    tokens (deviceData moduleID deviceID) =
      [moduleID.toList, "data".toList, deviceID.toList] := by
  have hchars : (deviceData moduleID deviceID).toList =
      moduleID.toList ++ '.' :: ("data".toList ++ '.' :: deviceID.toList) := by
    simp [deviceData]
  rw [tokens, hchars, List.splitOn_append_cons_self_of_not_mem hm,
    List.splitOn_append_cons_self_of_not_mem (by decide), List.splitOn_eq_singleton hd]

/-- A token that is no wildcard is compared. -/
theorem matchTokens_cons {p : List Char} (hstar : p ≠ ['*']) (hgreater : p ≠ ['>'])
    (t : List Char) (ps ts : List (List Char)) :
    matchTokens (p :: ps) (t :: ts) = (decide (p = t) && matchTokens ps ts) := by
  by_cases hpt : p = t
  · simp [matchTokens, hgreater, ← hpt]
  · simp [matchTokens, hgreater, hstar, hpt]

section Patterns

variable {moduleID deviceID moduleID' deviceID' : String} (hm : Plain moduleID)
  (hd : Plain deviceID) (hm' : '.' ∉ moduleID'.toList) (hd' : '.' ∉ deviceID'.toList)
include hm hd

/-- What a pattern of a device asks of the first three tokens. -/
theorem matchTokens_device (rest ts : List (List Char)) :
    matchTokens (moduleID.toList :: "data".toList :: deviceID.toList :: rest)
        (moduleID'.toList :: "data".toList :: deviceID'.toList :: ts) =
      (decide (moduleID = moduleID') && (decide (deviceID = deviceID') &&
        matchTokens rest ts)) := by
  rw [matchTokens_cons hm.star hm.greater, matchTokens_cons (by decide) (by decide),
    matchTokens_cons hd.star hd.greater, decide_eq_true rfl, Bool.true_and]
  simp only [String.toList_inj]

include hm' hd'

theorem match_deviceWildcard_data_iff (variableID : String) :
    matchSubject (deviceWildcard moduleID deviceID) (data moduleID' deviceID' variableID) = true ↔
      moduleID = moduleID' ∧ deviceID = deviceID' := by
  have hrest : tokens variableID ≠ [] := List.splitOn_ne_nil _ _
  rw [matchSubject, tokens_deviceWildcard hm.dot hd.dot, tokens_data hm' hd',
    matchTokens_device hm hd]
  simp [matchTokens, hrest]

theorem match_deviceData_iff :
    matchSubject (deviceData moduleID deviceID) (deviceData moduleID' deviceID') = true ↔
      moduleID = moduleID' ∧ deviceID = deviceID' := by
  rw [matchSubject, tokens_deviceData hm.dot hd.dot, tokens_deviceData hm' hd',
    matchTokens_device hm hd]
  simp [matchTokens]

theorem not_match_deviceData_data (variableID : String) :
    matchSubject (deviceData moduleID deviceID) (data moduleID' deviceID' variableID) = false := by
  have hrest : tokens variableID ≠ [] := List.splitOn_ne_nil _ _
  rw [matchSubject, tokens_deviceData hm.dot hd.dot, tokens_data hm' hd',
    matchTokens_device hm hd]
  simp [matchTokens, hrest]

theorem not_match_deviceWildcard_deviceData :
    matchSubject (deviceWildcard moduleID deviceID) (deviceData moduleID' deviceID') = false := by
  rw [matchSubject, tokens_deviceWildcard hm.dot hd.dot, tokens_deviceData hm' hd',
    matchTokens_device hm hd]
  simp [matchTokens]

end Patterns

/-- The last dot tells two strings apart. -/
theorem append_dot_injective {xs ys xs' ys' : List Char} (hy : '.' ∉ ys) (hy' : '.' ∉ ys')
    (h : xs ++ '.' :: ys = xs' ++ '.' :: ys') : xs = xs' ∧ ys = ys' := by
  have hreverse : ys.reverse ++ '.' :: xs.reverse = ys'.reverse ++ '.' :: xs'.reverse := by
    simpa using congrArg List.reverse h
  have hfront := congrArg afterDot hreverse
  rw [afterDot_append (by simpa using hy), afterDot_append (by simpa using hy'),
    Option.some.injEq, List.reverse_inj] at hfront
  subst hfront
  simpa using h

/-! ## The rule of the wildcards -/

/-- When the tokens of a pattern match those of a subject. -/
inductive Matches : List (List Char) → List (List Char) → Prop
  | nil : Matches [] []
  | literal {t : List Char} {ps ts : List (List Char)} (hstar : t ≠ ['*']) (hgreater : t ≠ ['>'])
      (rest : Matches ps ts) : Matches (t :: ps) (t :: ts)
  | star {t : List Char} {ps ts : List (List Char)} (rest : Matches ps ts) :
      Matches (['*'] :: ps) (t :: ts)
  | greater (t : List Char) (ts : List (List Char)) : Matches [['>']] (t :: ts)

/-- The token `>` stands at most at the end. -/
def GreaterLast (ps : List (List Char)) : Prop := ['>'] ∉ ps.dropLast

theorem GreaterLast.tail {p : List Char} {ps : List (List Char)} (h : GreaterLast (p :: ps)) :
    GreaterLast ps := by
  cases ps with
  | nil => simp [GreaterLast]
  | cons q ps => exact fun hmem => h (List.mem_cons_of_mem p hmem)

theorem GreaterLast.eq_nil {ps : List (List Char)} (h : GreaterLast (['>'] :: ps)) : ps = [] := by
  cases ps with
  | nil => rfl
  | cons q ps => exact absurd List.mem_cons_self h

/-- The code matches exactly what the relation does, if `>` comes last. -/
theorem matchTokens_iff {ps : List (List Char)} (h : GreaterLast ps) (ts : List (List Char)) :
    matchTokens ps ts = true ↔ Matches ps ts := by
  induction ps generalizing ts with
  | nil =>
    cases ts with
    | nil => exact iff_of_true rfl .nil
    | cons t ts => exact iff_of_false (by simp [matchTokens]) (by rintro ⟨⟩)
  | cons p ps ih =>
    have ih := ih h.tail
    by_cases hgreater : p = ['>']
    · -- Nothing stands behind the token in the pattern, so that it takes the rest.
      subst hgreater
      obtain rfl := h.eq_nil
      cases ts with
      | nil => exact iff_of_false (by simp [matchTokens]) (by rintro ⟨⟩)
      | cons t ts => exact iff_of_true (by simp [matchTokens]) (.greater t ts)
    · cases ts with
      | nil => exact iff_of_false (by simp [matchTokens, hgreater]) (by rintro ⟨⟩)
      | cons t ts =>
        by_cases hstar : p = ['*']
        · subst hstar
          have hstep : matchTokens (['*'] :: ps) (t :: ts) = matchTokens ps ts := by
            simp [matchTokens]
          rw [hstep, ih ts]
          constructor
          · exact .star
          · intro hmatches
            cases hmatches with
            | literal hstar _ _ => exact absurd rfl hstar
            | star hrest => exact hrest
        · rw [matchTokens_cons hstar hgreater, Bool.and_eq_true, decide_eq_true_iff, ih ts]
          constructor
          · rintro ⟨rfl, hrest⟩
            exact .literal hstar hgreater hrest
          · intro hmatches
            cases hmatches with
            | literal _ _ hrest => exact ⟨rfl, hrest⟩
            | star _ => exact absurd rfl hstar
            | greater _ _ => exact absurd rfl hgreater

/-- A pattern with `>` at most at its end matches exactly the subjects that the rule of the
wildcards says. -/
theorem matchSubject_iff_matches (pattern subject : String) (h : GreaterLast (tokens pattern)) :
    matchSubject pattern subject = true ↔ Matches (tokens pattern) (tokens subject) :=
  matchTokens_iff h (tokens subject)

theorem matchSubject_iff_matches_wildcards :
    Matches (tokens "plc.*.>") (tokens "plc.data.press.speed") := by
  refine (matchSubject_iff_matches "plc.*.>" "plc.data.press.speed" ?_).mp (by decide)
  rw [GreaterLast]
  decide

end Subjects
