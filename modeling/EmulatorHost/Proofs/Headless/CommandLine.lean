import EmulatorHost.Proofs.Headless.Settings
import EmulatorHost.Proofs.Headless.SizeText
import EmulatorHost.Proofs.Text.Utf8

/-! A value waits until the next option begins. So what has been read is told by the settings that
there are once what is pending has been taken in. -/

namespace EmulatorHost.Headless

def Setting.value : Setting → Argument
  | .rom path | .logFile path => path.bytes
  | .frames n | .failEvery n => CommandLine.bytes (toString n.toNat)
  | .rate n | .failureLimit n => CommandLine.bytes (toString n.toNat)
  | .size z | .resize z => CommandLine.bytes z.text
  | .cancelPick => []
  | .log filter => CommandLine.bytes filter

def Setting.Proper : Setting → Prop
  | .rom path | .logFile path => path.isEmpty = false
  | .size z | .resize z => z.isVisible = true
  | _ => True

def OptionName.dashed (k : OptionName) : Argument :=
  CommandLine.dash :: CommandLine.dash :: CommandLine.bytes k.word

def Setting.argument (x : Setting) : Argument :=
  if x.name.takesValue then x.name.dashed ++ CommandLine.equalsSign :: x.value else x.name.dashed

structure Options.Proper (o : Options) : Prop where
  visible : o.Visible
  roms : ∀ rom ∈ o.roms, rom.isEmpty = false
  logFile : ∀ path ∈ o.logFile, path.isEmpty = false

theorem Options.Proper.of_mem_occurrences {o : Options} (h : o.Proper) {x : Setting}
    {k : OptionName} (hx : x ∈ o.occurrences k) : x.Proper := by
  cases k with
  | rom =>
    obtain ⟨rom, picked, rfl⟩ := List.mem_map.1 hx
    exact h.roms rom picked
  | resize =>
    obtain ⟨size, planned, rfl⟩ := List.mem_map.1 hx
    exact h.visible.resizes size planned
  | size =>
    obtain rfl := List.mem_singleton.1 hx
    exact h.visible.size
  | logFile =>
    obtain ⟨path, asked, rfl⟩ := List.mem_map.1 hx
    exact h.logFile path (Option.mem_toList.1 asked)
  | rate | failEvery =>
    obtain ⟨n, -, rfl⟩ := List.mem_map.1 hx
    trivial
  | frames | failureLimit | log =>
    obtain rfl := List.mem_singleton.1 hx
    trivial
  | cancelPick =>
    simp only [occurrences] at hx
    split at hx
    · obtain rfl := List.mem_singleton.1 hx
      trivial
    · cases hx
  | help | version => cases hx

namespace CommandLine

section Values

theorem asText_bytes (s : String) : asText (bytes s) = .ok s.toList := by
  unfold asText bytes
  rw [Utf8.decode?_eq_some.2 rfl]

theorem asPath_bytes {path : Path} (named : path.isEmpty = false) :
    asPath path.bytes = .ok path := by
  have given : path.bytes.isEmpty = false := named
  simp [asPath, given]

theorem toList_toString (n : Nat) : (toString n).toList = Nat.toDigits 10 n := by
  rw [Nat.toString_eq_repr, Nat.toList_repr]

theorem asWord64_toString (n : UInt64) : asWord64 (bytes (toString n.toNat)) = .ok n := by
  have fits : n.toNat ≤ UInt64.size - 1 := Nat.le_pred_of_lt n.toNat_lt_size
  have read := Numeral.readNat_eq_ok.2 ⟨.inl (Numeral.digits_toDigits n.toNat), fits⟩
  simp only [asWord64, asText_bytes, toList_toString, bind, Except.bind, read, Nat.toUInt64_eq,
    UInt64.ofNat_toNat]

theorem asWord32_toString (n : UInt32) : asWord32 (bytes (toString n.toNat)) = .ok n := by
  have small : n.toNat ≤ 4294967295 := Nat.le_pred_of_lt n.toNat_lt_size
  have fits : n.toNat ≤ UInt64.size / 2 - 1 := Nat.le_trans small (by decide)
  have read := Numeral.readInt_eq_ok_of_digits (Numeral.digits_toDigits n.toNat) fits
  have range : (0 : Int) ≤ n.toNat ∧ (n.toNat : Int) ≤ 4294967295 := by omega
  simp only [asWord32, asText_bytes, toList_toString, bind, Except.bind, read, if_pos range,
    Int.toNat_natCast, Nat.toUInt32_eq, UInt32.ofNat_toNat]

theorem asSize_text {size : Size} (visible : size.isVisible = true) :
    asSize (bytes size.text) = .ok size := by
  obtain ⟨wide, high⟩ : size.width ≠ 0 ∧ size.height ≠ 0 := by simpa [Size.isVisible] using visible
  have read : SizeText.read size.text.toList = .ok size := by
    refine SizeText.read_eq_ok.2 ⟨_, 'x', _, ?_, rfl, (SizeText.shows_toString _).plain,
      SizeText.shows_toString _, SizeText.shows_toString _, wide, high⟩
    simp [Size.text]
  simp [asSize, asText_bytes, read, bind, Except.bind]

theorem setting_value {x : Setting} (h : x.Proper) : setting x.value x.name = .ok x := by
  cases x with
  | rom path => exact congrArg (Except.map Setting.rom) (asPath_bytes h)
  | frames n => exact congrArg (Except.map Setting.frames) (asWord64_toString n)
  | rate n => exact congrArg (Except.map Setting.rate) (asWord32_toString n)
  | size z => exact congrArg (Except.map Setting.size) (asSize_text h)
  | resize z => exact congrArg (Except.map Setting.resize) (asSize_text h)
  | cancelPick => rfl
  | failEvery n => exact congrArg (Except.map Setting.failEvery) (asWord64_toString n)
  | failureLimit n => exact congrArg (Except.map Setting.failureLimit) (asWord32_toString n)
  | log filter =>
    have read := congrArg (Except.map fun text => Setting.log (String.ofList text))
      (asText_bytes filter)
    rwa [Except.map, String.ofList_toList] at read
  | logFile path => exact congrArg (Except.map Setting.logFile) (asPath_bytes h)

end Values

section Words

variable {k : OptionName} {value : Argument} {s : State}

theorem option?_word (k : OptionName) : option? (bytes k.word) = some k := by cases k <;> rfl

theorem equalsSign_notMem_word (k : OptionName) : equalsSign ∉ bytes k.word := by
  cases k <;> decide

theorem word_differs (k : OptionName) : ∀ b ∈ bytes k.word, decide (b ≠ equalsSign) = true :=
  fun _ hb => decide_eq_true fun same => equalsSign_notMem_word k (same ▸ hb)

theorem splitValue_word (k : OptionName) : splitValue (bytes k.word) = (bytes k.word, none) := by
  have none : (bytes k.word ++ []).dropWhile (· ≠ equalsSign) = [] :=
    List.dropWhile_append_of_pos (word_differs k)
  rw [List.append_nil] at none
  rw [splitValue, none]

theorem splitValue_word_value (k : OptionName) (value : Argument) :
    splitValue (bytes k.word ++ equalsSign :: value) = (bytes k.word, some value) := by
  have differs := word_differs k
  rw [splitValue, List.dropWhile_append_of_pos differs, List.takeWhile_append_of_pos differs]
  simp

theorem read_long (untrailed : s.trailing = false) {rest : Argument} (more : rest ≠ []) :
    s.read (dash :: dash :: rest) = s.readLong (splitValue rest).1 (splitValue rest).2 := by
  cases rest with
  | nil => exact absurd rfl more
  | cons b rest => simp [State.read, untrailed, dash]

theorem word_ne_nil (k : OptionName) : bytes k.word ≠ [] := by cases k <;> decide

theorem read_joined (untrailed : s.trailing = false) (takes : k.takesValue = true)
    (value : Argument) :
    s.read (k.dashed ++ equalsSign :: value) = s.resolve >>= State.add k value := by
  have more : bytes k.word ++ equalsSign :: value ≠ [] :=
    List.append_ne_nil_of_left_ne_nil (word_ne_nil k) _
  rw [OptionName.dashed, List.cons_append, List.cons_append, read_long untrailed more,
    splitValue_word_value]
  simp [State.readLong, option?_word, takes]

theorem read_name (untrailed : s.trailing = false) (takes : k.takesValue = true) :
    s.read k.dashed = s.resolve >>= fun s => .ok { s with pending := .awaiting k } := by
  rw [OptionName.dashed, read_long untrailed (word_ne_nil k), splitValue_word]
  simp [State.readLong, option?_word, takes]

theorem read_flag (untrailed : s.trailing = false) (bare : k.takesValue = false) :
    s.read k.dashed = s.resolve >>= State.add k [] := by
  rw [OptionName.dashed, read_long untrailed (word_ne_nil k), splitValue_word]
  simp [State.readLong, option?_word, bare]

def Plain (value : Argument) : Prop := value = [dash] ∨ value.head? ≠ some dash

theorem read_value (untrailed : s.trailing = false) (plain : Plain value) (k : OptionName) :
    { s with pending := .awaiting k }.read value =
      .ok { s with pending := .holding k value } := by
  have unnamed : { s with pending := .awaiting k }.read value =
      { s with pending := .awaiting k }.readPlain value := by
    rcases plain with rfl | other
    · simp [State.read, untrailed, dash]
    · unfold State.read
      rw [if_neg (Bool.eq_false_iff.1 untrailed)]
      split
      · exact absurd rfl other
      · exact absurd rfl other
      · exact absurd rfl other
      · rfl
  rw [unnamed]
  rfl

end Words

def State.take (s : State) (x : Setting) : Except UsageError State :=
  if !x.name.repeats && s.settings.any fun y => y.name = x.name then .error .argumentConflict
  else .ok { s with settings := s.settings ++ [x] }

namespace State

variable {s s' : State} {x : Setting} {xs : List Setting} {k : OptionName} {value : Argument}

theorem name_of_setting (reads : setting value k = .ok x) : x.name = k := by
  cases k with
  | cancelPick =>
    cases reads
    rfl
  | help | version => cases reads
  | _ =>
    obtain ⟨_, -, rfl⟩ := eq_ok_of_map reads
    rfl

theorem add_eq_take (reads : setting value k = .ok x) (s : State) : s.add k value = s.take x := by
  obtain rfl := name_of_setting reads
  unfold add take
  rw [reads]
  rfl

theorem any_iff : (s.settings.any fun y => y.name = k) = true ↔ given s.settings k ≠ [] := by
  simp [given]

theorem take_of_compatible (h : Compatible (s.settings ++ [x])) :
    s.take x = .ok { s with settings := s.settings ++ [x] } := by
  obtain ⟨-, fresh⟩ := compatible_concat.1 h
  refine if_neg fun refuses => ?_
  obtain ⟨single, twice⟩ := Bool.and_eq_true_iff.1 refuses
  exact any_iff.1 twice (fresh (by simpa using single))

theorem take_of_conflict (h : Compatible s.settings) (conflict : ¬ Compatible (s.settings ++ [x])) :
    s.take x = .error .argumentConflict := by
  rw [compatible_concat, not_and] at conflict
  obtain ⟨single, twice⟩ := Classical.not_imp.1 (conflict h)
  exact if_pos (Bool.and_eq_true_iff.2 ⟨by rw [single]; rfl, any_iff.2 twice⟩)

theorem foldlM_take_of_compatible (h : Compatible (s.settings ++ xs)) :
    xs.foldlM take s = .ok { s with settings := s.settings ++ xs } := by
  induction xs generalizing s with
  | nil =>
    rw [List.append_nil]
    rfl
  | cons x xs ih =>
    rw [List.append_cons] at h ⊢
    rw [List.foldlM_cons, take_of_compatible h.left]
    exact ih (s := { s with settings := s.settings ++ [x] }) h

theorem foldlM_take_of_conflict (h : Compatible s.settings)
    (conflict : ¬ Compatible (s.settings ++ xs)) :
    xs.foldlM take s = .error .argumentConflict := by
  induction xs generalizing s with
  | nil => exact absurd (by simpa using h) conflict
  | cons x xs ih =>
    rw [List.append_cons] at conflict
    rw [List.foldlM_cons]
    by_cases still : Compatible (s.settings ++ [x])
    · rw [take_of_compatible still]
      exact ih still conflict
    · rw [take_of_conflict h still]
      rfl

structure AtRest (s : State) : Prop where
  pending : s.pending = .none
  untrailed : s.trailing = false

theorem atRest_of_resolve (untrailed : s.trailing = false) (resolves : s.resolve = .ok s') :
    s'.AtRest := by
  unfold resolve at resolves
  split at resolves
  · cases resolves
    exact ⟨‹_›, untrailed⟩
  · cases resolves
  · unfold add at resolves
    split at resolves
    · cases resolves
    · obtain ⟨x, -, rfl⟩ := eq_ok_of_map resolves
      exact ⟨rfl, untrailed⟩

namespace AtRest

theorem resolve_eq (h : s.AtRest) : s.resolve = .ok s := by
  rw [resolve, h.pending]

theorem of_take (h : s.AtRest) (takes : s.take x = .ok s') : s'.AtRest := by
  unfold take at takes
  split at takes
  · cases takes
  · cases takes
    exact ⟨h.pending, h.untrailed⟩

theorem resolve_holding (h : s.AtRest) (reads : setting value x.name = .ok x) :
    { s with pending := .holding x.name value }.resolve = s.take x := by
  rw [← add_eq_take reads, resolve, ← h.pending]

end AtRest

end State

inductive Writes : Setting → List Argument → Prop
  | joined {x : Setting} {value : Argument} (takes : x.name.takesValue = true)
      (reads : setting value x.name = .ok x) : Writes x [x.name.dashed ++ equalsSign :: value]
  | apart {x : Setting} {value : Argument} (takes : x.name.takesValue = true)
      (reads : setting value x.name = .ok x) (plain : Plain value) :
      Writes x [x.name.dashed, value]
  | flag : Writes .cancelPick [OptionName.cancelPick.dashed]

inductive Line : List Setting → List Argument → Prop
  | nil : Line [] []
  | cons {x : Setting} {xs : List Setting} {front rest : List Argument} (first : Writes x front)
      (later : Line xs rest) : Line (x :: xs) (front ++ rest)

section Lines

variable {s : State} {x : Setting} {xs : List Setting} {line front rest : List Argument}
  {argument : Argument} {β : Type} {after next : State → Except UsageError β}

theorem Writes.read_single (h : Writes x [argument]) (untrailed : s.trailing = false) :
    s.read argument = s.resolve >>= fun s => s.take x := by
  cases h with
  | joined takes reads => rw [read_joined untrailed takes, funext (State.add_eq_take reads)]
  | flag => rw [read_flag untrailed rfl, funext (State.add_eq_take (x := .cancelPick) rfl)]

theorem read_apart (untrailed : s.trailing = false) {k : OptionName} (takes : k.takesValue = true)
    {value : Argument} (plain : Plain value) :
    [k.dashed, value].foldlM State.read s =
      s.resolve >>= fun s => .ok { s with pending := .holding k value } := by
  simp only [List.foldlM_cons, List.foldlM_nil, bind_pure, read_name untrailed takes]
  cases resolved : s.resolve with
  | error problem => rfl
  | ok s₁ => exact read_value (State.atRest_of_resolve untrailed resolved).untrailed plain k

/-- What is pending is resolved first. Then the setting is taken in, at once or when what comes
after resolves it. -/
theorem Writes.bind_read (h : Writes x front)
    (resolves : ∀ s, s.trailing = false → after s = s.resolve >>= next)
    (untrailed : s.trailing = false) :
    front.foldlM State.read s >>= after = s.resolve >>= fun s => s.take x >>= next := by
  have single {argument : Argument} (h : Writes x [argument]) :
      [argument].foldlM State.read s >>= after = s.resolve >>= fun s => s.take x >>= next := by
    simp only [List.foldlM_cons, List.foldlM_nil, bind_pure, h.read_single untrailed]
    cases resolved : s.resolve with
    | error problem => rfl
    | ok s₁ =>
      have settled := State.atRest_of_resolve untrailed resolved
      change s₁.take x >>= after = s₁.take x >>= next
      cases taken : s₁.take x with
      | error problem => rfl
      | ok s₂ =>
        have settled := settled.of_take taken
        exact (resolves s₂ settled.untrailed).trans (by rw [settled.resolve_eq])
  cases h with
  | joined takes reads => exact single (.joined takes reads)
  | flag => exact single .flag
  | @apart _ value takes reads plain =>
    rw [read_apart untrailed takes plain]
    cases resolved : s.resolve with
    | error problem => rfl
    | ok s₁ =>
      have settled := State.atRest_of_resolve untrailed resolved
      exact (resolves { s₁ with pending := .holding x.name value } settled.untrailed).trans
        (by rw [settled.resolve_holding reads]; rfl)

theorem Line.bind_read (h : Line xs line)
    (resolves : ∀ s, s.trailing = false → after s = s.resolve >>= next)
    (untrailed : s.trailing = false) :
    line.foldlM State.read s >>= after =
      s.resolve >>= fun s => xs.foldlM State.take s >>= next := by
  induction h generalizing s with
  | nil => exact resolves s untrailed
  | cons first _ ih =>
    rw [List.foldlM_append, bind_assoc, first.bind_read (fun s => ih) untrailed]
    simp only [List.foldlM_cons, bind_assoc]

theorem writes_argument (proper : x.Proper) : Writes x [x.argument] := by
  unfold Setting.argument
  split
  · exact .joined ‹_› (setting_value proper)
  · cases x <;> first | exact .flag | contradiction

theorem line_arguments (proper : ∀ x ∈ xs, x.Proper) : Line xs (xs.map Setting.argument) := by
  induction xs with
  | nil => exact .nil
  | cons x xs ih =>
    obtain ⟨first, rest⟩ := List.forall_mem_cons.1 proper
    exact .cons (writes_argument first) (ih rest)

theorem Line.settings_eq (h : Line xs line) :
    settings line = xs.foldlM State.take {} >>= fun s => pure s.settings :=
  h.bind_read (fun _ _ => rfl) rfl

theorem compatible_nil : Compatible [] := fun _ _ => Nat.zero_le 1

theorem foldlM_take_of_conflict (conflict : ¬ Compatible xs) :
    xs.foldlM State.take {} = .error .argumentConflict :=
  State.foldlM_take_of_conflict (s := {}) compatible_nil conflict

theorem Line.parse_of_compatible (h : Line xs line) (compatible : Compatible xs) :
    parse line = .ok (Options.ofSettings xs) := by
  have taken : xs.foldlM State.take {} = .ok { settings := [] ++ xs } :=
    State.foldlM_take_of_compatible (s := {}) compatible
  rw [parse, h.settings_eq, taken]
  rfl

theorem Line.parse_of_conflict (h : Line xs line) (conflict : ¬ Compatible xs) :
    parse line = .error .argumentConflict := by
  rw [parse, h.settings_eq, foldlM_take_of_conflict conflict]
  rfl

theorem Line.parse_of_last_conflict (h : Line xs line) (last : Writes x [argument])
    (conflict : ¬ Compatible (xs ++ [x])) (rest : List Argument) :
    parse (line ++ argument :: rest) = .error .argumentConflict := by
  have taken : xs.foldlM State.take {} >>= (fun s => s.take x) = .error .argumentConflict := by
    have all := foldlM_take_of_conflict conflict
    rw [List.foldlM_append] at all
    simpa only [List.foldlM_cons, List.foldlM_nil, bind_pure] using all
  have read : line.foldlM State.read {} >>= (fun s => s.read argument) =
      .error .argumentConflict :=
    (h.bind_read (fun _ untrailed => last.read_single untrailed) rfl).trans taken
  have whole : (line ++ argument :: rest).foldlM State.read {} = .error .argumentConflict := by
    rw [List.foldlM_append]
    simp only [List.foldlM_cons]
    rw [← bind_assoc, read]
    rfl
  rw [parse, settings, whole]
  rfl

/-- Options are read back from the settings that list them, in any order, each in one argument. What
has a default may be left out. All other lines of settings are read in the same way, whether a value
stands in the argument with the option's name or in the next one, but an option that does not add up
must not be set twice. When it is set for the second time in one argument, the rest of the line does
not matter any more. -/
theorem lines_read_back :
    (∀ (o : Options) (xs : List Setting), o.Proper → o.Lists xs →
      parse (xs.map Setting.argument) = .ok o) ∧
    (∀ (xs : List Setting) (line : List Argument), Line xs line →
      ((∀ k, k.repeats = false → (given xs k).length ≤ 1) →
        parse line = .ok (Options.ofSettings xs)) ∧
      ∀ k, k.repeats = false → 2 ≤ (given xs k).length → parse line = .error .argumentConflict) ∧
    ∀ (xs : List Setting) (line : List Argument) (x : Setting) (argument : Argument)
      (rest : List Argument), Line xs line → Writes x [argument] → x.name.repeats = false →
        (∃ y ∈ xs, y.name = x.name) →
          parse (line ++ argument :: rest) = .error .argumentConflict := by
  refine ⟨fun o xs proper lists => ?_, fun xs line h => ⟨h.parse_of_compatible, ?_⟩, ?_⟩
  · have each : ∀ x ∈ xs, x.Proper := fun x hx =>
      proper.of_mem_occurrences (lists.mem_occurrences hx)
    rw [(line_arguments each).parse_of_compatible lists.compatible, lists.ofSettings_eq]
  · intro k single twice
    refine h.parse_of_conflict fun compatible => ?_
    have once := compatible k single
    omega
  · rintro xs line x argument rest h last single ⟨y, hy, same⟩
    refine h.parse_of_last_conflict last (fun compatible => ?_) rest
    have fresh := (compatible_concat.1 compatible).2 single
    have listed : y ∈ given xs x.name := mem_given.2 ⟨hy, same⟩
    rw [fresh] at listed
    cases listed

theorem mixed_options_read_back :
    ∃ (o : Options) (xs : List Setting), o.Proper ∧ o.Lists xs ∧
      xs.map Setting.argument =
        ["--resize=9x6", "--rom=b=1", "--cancel-pick", "--fps=4294967295", "--resize=9x7",
          "--rom=a", "--frames=18446744073709551615"].map bytes ∧
      parse (xs.map Setting.argument) = .ok o ∧
      Line [.frames 1, .rom (.ofText "a"), .frames 1]
        (["--frames", "1", "--rom=a", "--frames=1"].map bytes) ∧
      parse (["--frames", "1", "--rom=a", "--frames=1"].map bytes) = .error .argumentConflict := by
  let o : Options :=
    { roms := [.ofText "b=1", .ofText "a"]
      frames := 18446744073709551615
      rate := some 4294967295
      resizes := [⟨9, 6⟩, ⟨9, 7⟩]
      cancelPick := true }
  let xs : List Setting :=
    [.resize ⟨9, 6⟩, .rom (.ofText "b=1"), .cancelPick, .rate 4294967295, .resize ⟨9, 7⟩,
      .rom (.ofText "a"), .frames 18446744073709551615]
  obtain ⟨reads, lines, -⟩ := lines_read_back
  have proper : o.Proper := ⟨⟨rfl, by decide⟩, by decide, nofun⟩
  have lists : o.Lists xs := fun k => by cases k <;> decide
  have apart : Writes (.frames 1) [bytes "--frames", bytes "1"] :=
    .apart rfl rfl (.inr (by decide))
  have rom : Writes (.rom (.ofText "a")) [bytes "--rom=a"] := writes_argument (x := .rom _) rfl
  have joined : Writes (.frames 1) [bytes "--frames=1"] :=
    writes_argument (x := .frames 1) trivial
  have line : Line [.frames 1, .rom (.ofText "a"), .frames 1]
      (["--frames", "1", "--rom=a", "--frames=1"].map bytes) :=
    .cons apart (.cons rom (.cons joined .nil))
  exact ⟨o, xs, proper, lists, rfl, reads o xs proper lists, line,
    (lines _ _ line).2 .frames rfl (by decide)⟩

end Lines

end CommandLine

end EmulatorHost.Headless
