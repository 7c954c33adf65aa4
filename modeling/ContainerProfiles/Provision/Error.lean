import ContainerProfiles.Resource

namespace ContainerProfiles

-- Why a provisioning step is refused.

inductive ProvisionError where
  | unsatisfied (requirements : List Requirement)
  | installRejected (resource : ResourceId)
  | alreadyUninstalled (resource : ResourceId)
  | uninstallRefused (resource : ResourceId)
  | emptyTarget
  | targetRefused (target : String)
deriving DecidableEq

namespace ProvisionError

def message : ProvisionError → String
  | unsatisfied requirements =>
      "unsatisfied requirements: " ++ String.intercalate ", " (requirements.map Requirement.text)
  | installRejected resource =>
      s!"failed to install resource '{resource}': install rejected by repository"
  | alreadyUninstalled resource => s!"failed to uninstall resource '{resource}': already uninstalled"
  | uninstallRefused resource => s!"failed to uninstall resource '{resource}': uninstall refused"
  | emptyTarget => "failed to apply configuration '': empty target"
  | targetRefused target => s!"failed to apply configuration '{target}': target refused"

end ProvisionError
end ContainerProfiles
