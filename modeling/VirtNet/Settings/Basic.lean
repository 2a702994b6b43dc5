import VirtNet.Value.Basic

/-!
# Settings

What a user can set about the analysis of a design and the manifests made from it. The settings that
only pass through to a manifest keep whatever value the settings file has for them.
-/

namespace VirtNet

/-- The settings of a run. -/
structure Settings where
  /-- The name of the network mode. -/
  networkMode : Value := .text "connection"
  /-- Whether addresses of different networks on one segment are an error. -/
  strictSubnets : Bool := false
  /-- The storage class of the claims. -/
  storageClass : Value := .text "nfs-client"
  /-- Where the base image is imported from. -/
  imageUrl : Value :=
    .text "https://cdimage.debian.org/images/cloud/bookworm/latest/debian-12-generic-amd64.raw"
  /-- The accounts that get a password. -/
  loginUsers : List String := ["root", "debian"]
  /-- The password of the accounts. -/
  loginPassword : String := "pass123"
  /-- The most bytes of a machine's user data, a number. -/
  userDataLimit : Value := .int 2048
  /-- The first host number that an attachment may hand out. -/
  ipamStart : Value := .int 10
  /-- The last host number that an attachment may hand out. -/
  ipamEnd : Value := .int 200
  /-- The interface of the management network. -/
  managementInterface : Value := .text "enp1s0"
  /-- The gateway of the management network. -/
  managementGateway : Value := .text "10.0.2.1"
deriving Inhabited

end VirtNet
