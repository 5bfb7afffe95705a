import OnionPool.Launch.Chain
import OnionPool.Proofs.TreeEdits

/-!
# Whether the directory of a circuit is private

A directory that is made for a circuit is for its owner alone, and so are the directories above it
that had to be made; nothing that was there before is touched, even if the launch fails. A directory
that was left behind with other permissions keeps them: the launch succeeds all the same.
-/

namespace OnionPool.Chain

open FileTree (LeadsTo)

variable {c : Chain} {port : Port} {dir : Path} {t u : FileTree} {spec : LaunchSpec}

/-- The circuit is described if its directory could be made. -/
theorem circuit_on : (c.circuit port dir).on t =
    match (Edit.ensureDirectory FileTree.privateMode dir).on t with
    | (.ok _, u) => (.ok (c.tor.spec port dir), u)
    | (.error e, u) => (.error e, u) := by
  unfold circuit
  rw [Edit.on_bind]
  rcases (Edit.ensureDirectory FileTree.privateMode dir).on t with ⟨_ | _, u⟩
  · rfl
  · rfl

/-- Whether it succeeds or not, the launch leaves what the making of its directory leaves. -/
theorem tree_after_circuit : ((c.circuit port dir).on t).2 =
    ((Edit.ensureDirectory FileTree.privateMode dir).on t).2 := by
  rw [circuit_on]
  rcases (Edit.ensureDirectory FileTree.privateMode dir).on t with ⟨_ | _, u⟩
  · rfl
  · rfl

/-- A circuit is launched exactly if its directory could be made. -/
theorem circuit_eq_ok_iff : (c.circuit port dir).on t = (.ok spec, u) ↔
    (Edit.ensureDirectory FileTree.privateMode dir).on t = (.ok (), u) ∧
      spec = c.tor.spec port dir := by
  rw [circuit_on]
  rcases (Edit.ensureDirectory FileTree.privateMode dir).on t with ⟨_ | _, v⟩
  · simp
  · simp [and_comm, eq_comm]

/-- What the launch of a circuit does to a tree, whether it succeeds or fails. -/
theorem grown_circuit (c : Chain) (port : Port) (dir : Path) (t : FileTree) :
    FileTree.Grown 0o700 dir t ((c.circuit port dir).on t).2 := by
  rw [tree_after_circuit]
  exact Edit.grown_ensureDirectory _ dir t

/-- A directory that is there is taken as it is. -/
theorem circuit_of_leadsTo {place : Location} {mode : Nat}
    (h : t.LeadsTo dir place (.directory mode)) :
    (c.circuit port dir).on t = (.ok (c.tor.spec port dir), t) :=
  circuit_eq_ok_iff.mpr ⟨Edit.ensureDirectory_of_leadsTo h, rfl⟩

/-- **The directory of a circuit is private if it is new.** Whether the launch succeeds or fails,
all that is there stays as it is, and what is new are directories with mode 0700 that the path or a
path above it leads to. After a success the path leads to a directory, unless it is empty; and the
mode of that directory is 0700 exactly if there was nothing before, or a directory with this mode.
Where the path leads to a directory already, the launch succeeds, and the mode stays, whatever it
is. -/
theorem circuit_directory_is_private_if_new (c : Chain) (port : Port) (dir : Path) (t : FileTree) :
    let after := ((c.circuit port dir).on t).2
    (∀ place, after.get? place = t.get? place ∨
      t.get? place = none ∧ after.get? place = some (.directory 0o700) ∧
        ∃ above, dir.Above above ∧ after.LeadsTo above place (.directory 0o700)) ∧
    (∀ spec, ((c.circuit port dir).on t).1 = .ok spec →
      dir = "" ∧ after = t ∨ ∃ place mode, after.LeadsTo dir place (.directory mode) ∧
        (mode = 0o700 ↔ t.get? place = none ∨ t.get? place = some (.directory 0o700))) ∧
    ∀ place mode, t.LeadsTo dir place (.directory mode) →
      ((c.circuit port dir).on t).1 = .ok (c.tor.spec port dir) ∧
        after.LeadsTo dir place (.directory mode) := by
  intro after
  have hgrown : FileTree.Grown 0o700 dir t after := grown_circuit c port dir t
  refine ⟨hgrown.places, fun spec hok => ?_, fun place mode hleads => ?_⟩
  · have hresult : (c.circuit port dir).on t = (.ok spec, after) := Prod.ext hok rfl
    rcases Edit.leadsTo_of_ensureDirectory (circuit_eq_ok_iff.mp hresult).1 with hempty | hleads
    · exact .inl hempty
    · obtain ⟨place, mode, hleads⟩ := hleads
      exact .inr ⟨place, mode, hleads, hgrown.mode_eq_iff (hleads.way.get?_of_found rfl)⟩
  · rw [circuit_of_leadsTo hleads]
    exact ⟨rfl, hleads.keep hgrown.keeps⟩

/-- The programs as they are launched by name. -/
def byName : Chain :=
  ⟨⟨"tor", .ofMillis 0, .ofMillis 250, "notice"⟩, ⟨"privoxy", .ofMillis 250⟩⟩

theorem torName_is_free : FileTree.empty.resolveName "/tor-30000" = .ok (.vacant ["tor-30000"]) :=
  FileTree.resolveName_empty ⟨by decide, by decide, by decide⟩ (by decide)
    ⟨by decide, by decide, by decide⟩

/-- In an empty tree the launch succeeds, and the directory is private. -/
theorem circuit_directory_is_private_at_root :
    let launched := (byName.circuit 30000 "/tor-30000").on FileTree.empty
    (∃ spec, launched.1 = .ok spec) ∧
      launched.2.LeadsTo "/tor-30000" ["tor-30000"] (.directory 0o700) := by
  intro launched
  have hlaunched : launched = (.ok (byName.tor.spec 30000 "/tor-30000"), _) :=
    circuit_eq_ok_iff.mpr ⟨Edit.ensureDirectory_of_vacant torName_is_free, rfl⟩
  have hok : launched.1 = .ok (byName.tor.spec 30000 "/tor-30000") := by rw [hlaunched]
  have hthere : launched.2.LeadsTo "/tor-30000" ["tor-30000"] (.directory 0o700) := by
    rw [hlaunched]
    exact FileTree.leadsTo_of_vacant torName_is_free
  refine ⟨⟨_, hok⟩, ?_⟩
  obtain ⟨-, hmode, -⟩ := circuit_directory_is_private_if_new byName 30000 "/tor-30000" .empty
  rcases hmode _ hok with ⟨hempty, -⟩ | ⟨place, mode, hleads, hprivate⟩
  · exact absurd hempty (by decide)
  · -- The place is the one that was free, so the mode is that of a new directory.
    obtain rfl : place = ["tor-30000"] :=
      congrArg FileTree.Target.place (hleads.way.unique hthere.way)
    obtain rfl := hprivate.mpr (.inl rfl)
    exact hleads

/-- What a run that was killed has left behind: the directory of a circuit, which others can read by
now. -/
def leftover : FileTree := FileTree.empty.put ["tor-30000"] (.directory 0o755)

/-- A directory that everybody can read stays so, and tor is launched with it: a launch that
succeeds does not make the directory private. -/
theorem leftover_directory_stays_open :
    (∃ spec, (byName.circuit 30000 "/tor-30000").on leftover = (.ok spec, leftover)) ∧
      leftover.LeadsTo "/tor-30000" ["tor-30000"] (.directory 0o755) := by
  have hroot : leftover.get? [] = some (.directory FileTree.openMode) := rfl
  have hdir : leftover.get? ["tor-30000"] = some (.directory 0o755) := by decide
  have hparts : Path.parts "/tor-30000" = ["", "tor-30000"] := by decide
  have hleads : leftover.LeadsTo "/tor-30000" ["tor-30000"] (.directory 0o755) := by
    refine ⟨⟨by decide, by decide, by decide⟩, ?_⟩
    rw [hparts]
    -- The empty part in front of the first slash is the root itself.
    exact .idle hroot (.inl rfl) (.down hroot ⟨by decide, by decide, by decide⟩ hdir nofun
      (.arrive hdir))
  exact ⟨⟨_, circuit_of_leadsTo hleads⟩, hleads⟩

end OnionPool.Chain
