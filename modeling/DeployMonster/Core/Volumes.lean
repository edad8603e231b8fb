import DeployMonster.Library.Failure
import DeployMonster.Library.Path

/-!
# The host paths of volumes

`ContainerOpts.ValidateVolumePaths` is to keep the Docker socket out of the containers of tenants.
It cleans each host path and compares it with the paths of the socket.
-/

namespace DeployMonster.Core.Volumes

open Failure Path

/-- The fields of `ContainerOpts` that are about volumes: host paths with the paths in the container, in
the order of the iteration, and the permission to mount the socket. -/
structure ContainerOpts where
  volumes : List (String × String)
  allowDockerSocket : Bool := false

def dangerousPaths : List String := ["/var/run/docker.sock", "/run/docker.sock", "/var/run/docker"]

def normalize (path : List Char) : List Char := path.map fun c => if c = '\\' then '/' else c

/-- The body of the loop of `ValidateVolumePaths`, where `quote` is the verb `%q`. -/
def validateHostPath (quote : String → String) (allowDockerSocket : Bool) (hostPath : String) :
    Except String Unit :=
  let cleaned := clean hostPath.toList
  if '\x00' ∈ hostPath.toList then .error "volume host path contains null byte"
  else if ['.', '.'] <:+: hostPath.toList then
    .error ("volume host path " ++ quote hostPath ++ " contains path traversal")
  else if ['.', '.'] <:+: cleaned then
    .error ("volume host path " ++ quote hostPath ++ " contains path traversal after cleaning")
  else if isAbs cleaned = false then
    .error ("volume host path " ++ quote hostPath ++ " must be absolute")
  else if normalize cleaned = ['/'] ∨ normalize cleaned = ['\\'] then
    .error ("volume host path " ++ quote hostPath ++ " cannot be root directory")
  else if allowDockerSocket = false ∧ String.ofList (normalize cleaned) ∈ dangerousPaths then
    .error ("volume host path " ++ quote hostPath ++
      " is blocked — Docker socket access requires AllowDockerSocket")
  else .ok ()

def validateVolumePaths (quote : String → String) (o : ContainerOpts) : Except String Unit :=
  o.volumes.forM fun v => validateHostPath quote o.allowDockerSocket v.1

def socketDirs : List String := ["/var", "/var/run", "/run"]

def SocketHidden (o : ContainerOpts) : Prop :=
  ∀ v ∈ o.volumes, ∀ socket ∈ dangerousPaths, ¬ Within (clean v.1.toList) socket.toList

variable {quote : String → String} {hostPath : String}

lemma not_dangerous_of_accepted (h : validateHostPath quote false hostPath = .ok ()) :
    isAbs (clean hostPath.toList) = true ∧ normalize (clean hostPath.toList) ≠ ['/'] ∧
      String.ofList (normalize (clean hostPath.toList)) ∉ dangerousPaths := by
  obtain ⟨-, h⟩ := ite_error_eq_ok.mp h
  obtain ⟨-, h⟩ := ite_error_eq_ok.mp h
  obtain ⟨-, h⟩ := ite_error_eq_ok.mp h
  obtain ⟨habs, h⟩ := ite_error_eq_ok.mp h
  obtain ⟨hroot, h⟩ := ite_error_eq_ok.mp h
  obtain ⟨hsocket, -⟩ := ite_error_eq_ok.mp h
  exact ⟨eq_true_of_ne_false habs, fun heq => hroot (.inl heq), fun hmem => hsocket ⟨rfl, hmem⟩⟩

lemma render_inits : ∀ socket ∈ dangerousPaths, ∀ names ∈ (components socket.toList).inits,
    normalize (render names) = ['/'] ∨ String.ofList (normalize (render names)) ∈ dangerousPaths ∨
      String.ofList (render names) ∈ socketDirs := by
  decide +kernel

lemma within_of_socketDirs : ∀ dir ∈ socketDirs, ∃ socket ∈ dangerousPaths,
    Within dir.toList socket.toList := by
  decide +kernel

/-- **An accepted host path reaches a socket exactly when** it is one of the directories that have one,
other than the root. -/
theorem within_of_accepted (h : validateHostPath quote false hostPath = .ok ()) :
    (∃ socket ∈ dangerousPaths, Within (clean hostPath.toList) socket.toList) ↔
      String.ofList (clean hostPath.toList) ∈ socketDirs := by
  obtain ⟨habs, hroot, hsocket⟩ := not_dangerous_of_accepted h
  constructor
  · rintro ⟨socket, hmem, hwithin⟩
    have hinits := render_inits socket hmem _ ((List.mem_inits _ _).mpr hwithin)
    rw [← clean_eq_render habs] at hinits
    exact (hinits.resolve_left hroot).resolve_left hsocket
  · intro hdir
    have hreach := within_of_socketDirs _ hdir
    rwa [String.toList_ofList] at hreach

/-- **Accepted volumes hide the socket exactly when** no host path is one of the directories that it is
in. -/
theorem accepted_hidden_iff (quote : String → String) (o : ContainerOpts)
    (hsocket : o.allowDockerSocket = false) (h : validateVolumePaths quote o = .ok ()) :
    SocketHidden o ↔ ∀ v ∈ o.volumes, String.ofList (clean v.1.toList) ∉ socketDirs := by
  rw [validateVolumePaths, hsocket] at h
  refine forall₂_congr fun v hv => ?_
  rw [← within_of_accepted (forall_of_forM h v hv)]
  push Not
  rfl

/-- An application's data. -/
theorem accepted_hidden_iff_data :
    validateVolumePaths id { volumes := [("/var/lib//app/./data/", "/data")] } = .ok () ∧
      SocketHidden { volumes := [("/var/lib//app/./data/", "/data")] } := by
  have haccepted :
      validateVolumePaths id { volumes := [("/var/lib//app/./data/", "/data")] } = .ok () := by
    decide +kernel
  exact ⟨haccepted, (accepted_hidden_iff id _ rfl haccepted).mpr (by decide +kernel)⟩

/-- **The directory of the socket is accepted.** -/
theorem socketDir_accepted : (∀ dir ∈ ["/var/run", "/run/", "//var"],
      validateVolumePaths id { volumes := [(dir, "/host")] } = .ok ()) ∧
    ∀ dir ∈ ["/var/run", "/run/", "//var"], ¬ SocketHidden { volumes := [(dir, "/host")] } := by
  unfold SocketHidden
  decide +kernel

end DeployMonster.Core.Volumes
