import EmulatorHost.Headless.CommandLine

namespace EmulatorHost.Headless

theorem SizeText.isVisible_of_read {text : List Char} {size : Size} (h : read text = .ok size) :
    size.isVisible = true := by
  simp only [read] at h
  split at h
  · cases h
  · split at h
    · cases h
    · cases h
    · split at h
      · cases h
      · rename_i nonzero
        obtain rfl := Except.ok.inj h
        simpa [Size.isVisible] using nonzero

namespace CommandLine

section Except

variable {ε α β : Type} {x : Except ε α} {b : β}

theorem eq_ok_of_bind {f : α → Except ε β} (h : x >>= f = .ok b) :
    ∃ a, x = .ok a ∧ f a = .ok b := by
  cases x with
  | error e => cases h
  | ok a => exact ⟨a, rfl, h⟩

theorem eq_ok_of_map {f : α → β} (h : x.map f = .ok b) : ∃ a, x = .ok a ∧ f a = b := by
  cases x with
  | error e => cases h
  | ok a => exact ⟨a, rfl, Except.ok.inj h⟩

end Except

def IsRead (x : Setting) : Prop := ∃ option value, setting value option = .ok x

namespace State

variable {s s' : State} {option : OptionName} {value word argument : Argument} {letter : UInt8}

def Sound (s : State) : Prop := ∀ x ∈ s.settings, IsRead x

theorem Sound.add (h : s.Sound) (added : s.add option value = .ok s') : s'.Sound := by
  unfold State.add at added
  split at added
  · cases added
  · obtain ⟨x, read, rfl⟩ := eq_ok_of_map added
    intro y hy
    rcases List.mem_append.1 hy with old | new
    · exact h y old
    · rw [List.mem_singleton.1 new]
      exact ⟨option, value, read⟩

theorem Sound.resolve (h : s.Sound) (resolved : s.resolve = .ok s') : s'.Sound := by
  unfold State.resolve at resolved
  split at resolved
  · obtain rfl := Except.ok.inj resolved
    exact h
  · cases resolved
  · exact add (s := { s with pending := .none }) h resolved

theorem Sound.resolve_add (h : s.Sound) (read : s.resolve >>= State.add option value = .ok s') :
    s'.Sound := by
  obtain ⟨between, resolved, added⟩ := eq_ok_of_bind read
  exact (h.resolve resolved).add added

theorem Sound.readLong {given : Option Argument} (h : s.Sound)
    (read : s.readLong word given = .ok s') : s'.Sound := by
  unfold State.readLong at read
  split at read
  · cases read
  · split at read
    · obtain ⟨between, resolved, read⟩ := eq_ok_of_bind read
      have sound := h.resolve resolved
      split at read
      · obtain rfl := Except.ok.inj read
        exact sound
      · exact sound.add read
    · split at read
      · exact h.resolve_add read
      · cases read

theorem Sound.readShort (h : s.Sound) (read : s.readShort letter = .ok s') : s'.Sound := by
  unfold State.readShort at read
  split at read
  · exact h.resolve_add read
  · split at read
    · exact h.resolve_add read
    · cases read

theorem Sound.readPlain (h : s.Sound) (read : s.readPlain argument = .ok s') : s'.Sound := by
  unfold State.readPlain at read
  split at read
  · obtain rfl := Except.ok.inj read
    exact h
  · cases read

theorem Sound.read (h : s.Sound) (read : s.read argument = .ok s') : s'.Sound := by
  unfold State.read at read
  split at read
  · cases read
  · split at read
    · obtain rfl := Except.ok.inj read
      exact h
    · exact h.readLong read
    · exact h.readShort read
    · exact h.readPlain read

theorem Sound.foldlM {arguments : List Argument} (h : s.Sound)
    (read : arguments.foldlM State.read s = .ok s') : s'.Sound := by
  induction arguments generalizing s with
  | nil =>
    obtain rfl := Except.ok.inj read
    exact h
  | cons argument rest ih =>
    obtain ⟨between, first, later⟩ := eq_ok_of_bind read
    exact ih (h.read first) later

end State

variable {arguments : List Argument} {all : List Setting} {o : Options}

theorem isRead_of_settings (accepted : settings arguments = .ok all) : ∀ x ∈ all, IsRead x := by
  obtain ⟨last, read, accepted⟩ := eq_ok_of_bind accepted
  obtain ⟨final, resolved, same⟩ := eq_ok_of_bind accepted
  obtain rfl := Except.ok.inj same
  have empty : State.Sound {} := List.forall_mem_nil _
  exact (empty.foldlM read).resolve resolved

theorem isEmpty_of_asPath {value : Argument} {path : Path} (h : asPath value = .ok path) :
    path.isEmpty = false := by
  unfold asPath at h
  split at h
  · cases h
  · rename_i given
    obtain rfl := Except.ok.inj h
    simpa [Path.isEmpty] using given

theorem isVisible_of_asSize {value : Argument} {z : Size} (h : asSize value = .ok z) :
    z.isVisible = true := by
  obtain ⟨text, -, read⟩ := eq_ok_of_bind h
  split at read
  · cases read
  · rename_i size hr
    obtain rfl := Except.ok.inj read
    exact SizeText.isVisible_of_read hr

end CommandLine

def Setting.size? : Setting → Option Size
  | .size z | .resize z => some z
  | _ => none

theorem CommandLine.IsRead.isVisible {x : Setting} (h : IsRead x) {z : Size}
    (hz : x.size? = some z) : z.isVisible = true := by
  obtain ⟨option, value, read⟩ := h
  cases option with
  | size | resize =>
    obtain ⟨size, asked, rfl⟩ := eq_ok_of_map read
    obtain rfl := Option.some.inj hz
    exact isVisible_of_asSize asked
  | cancelPick =>
    obtain rfl := Except.ok.inj read
    cases hz
  | help | version => cases read
  | _ =>
    obtain ⟨given, -, rfl⟩ := eq_ok_of_map read
    cases hz

theorem CommandLine.IsRead.isEmpty {rom : Path} (h : IsRead (.rom rom)) : rom.isEmpty = false := by
  obtain ⟨option, value, read⟩ := h
  cases option with
  | rom =>
    obtain ⟨path, asked, same⟩ := eq_ok_of_map read
    obtain rfl := Setting.rom.inj same
    exact isEmpty_of_asPath asked
  | cancelPick => cases read
  | help | version => cases read
  | _ =>
    obtain ⟨_, -, same⟩ := eq_ok_of_map read
    cases same

namespace Options

variable {o : Options} {x : Setting} {all : List Setting}

structure Visible (o : Options) : Prop where
  size : o.size.isVisible = true
  resizes : ∀ z ∈ o.resizes, z.isVisible = true

theorem Visible.apply (h : o.Visible) (hx : ∀ z, x.size? = some z → z.isVisible = true) :
    (o.apply x).Visible := by
  cases x with
  | size z => exact ⟨hx z rfl, h.resizes⟩
  | resize z =>
    refine ⟨h.size, fun y hy => ?_⟩
    rcases List.mem_append.1 hy with old | new
    · exact h.resizes y old
    · rw [List.mem_singleton.1 new]
      exact hx z rfl
  | _ => exact ⟨h.size, h.resizes⟩

theorem Visible.foldl (h : o.Visible)
    (read : ∀ x ∈ all, ∀ z, x.size? = some z → z.isVisible = true) :
    (all.foldl Options.apply o).Visible := by
  induction all generalizing o with
  | nil => exact h
  | cons x rest ih =>
    rw [List.forall_mem_cons] at read
    exact ih (h.apply read.1) read.2

theorem visible_of_parse {arguments : List Argument}
    (accepted : CommandLine.parse arguments = .ok o) : o.Visible := by
  obtain ⟨all, read, rfl⟩ := CommandLine.eq_ok_of_map accepted
  have first : Visible {} := ⟨rfl, List.forall_mem_nil _⟩
  exact first.foldl fun x hx z hz => (CommandLine.isRead_of_settings read x hx).isVisible hz

theorem mem_roms_foldl {rom : Path} (h : rom ∈ (all.foldl apply o).roms) :
    rom ∈ o.roms ∨ .rom rom ∈ all := by
  induction all generalizing o with
  | nil => exact .inl h
  | cons x rest ih =>
    rcases ih h with earlier | later
    · cases x with
      | rom path =>
        rcases List.mem_append.1 earlier with old | new
        · exact .inl old
        · rw [List.mem_singleton.1 new]
          exact .inr List.mem_cons_self
      | _ => exact .inl earlier
    · exact .inr (List.mem_cons_of_mem x later)

theorem named_of_parse {arguments : List Argument}
    (accepted : CommandLine.parse arguments = .ok o) : ∀ rom ∈ o.roms, rom.isEmpty = false := by
  obtain ⟨all, read, rfl⟩ := CommandLine.eq_ok_of_map accepted
  intro rom picked
  have given := (mem_roms_foldl picked).resolve_left List.not_mem_nil
  exact (CommandLine.isRead_of_settings read _ given).isEmpty

end Options

end EmulatorHost.Headless
