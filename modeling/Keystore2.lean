import Keystore2.Catalog
import Keystore2.Macro
import Keystore2.PermSet
import Keystore2.Iter
import Keystore2.Machine
import Keystore2.Selinux
import Keystore2.Check
import Keystore2.KeyCheck
import Keystore2.GrantCheck
import Keystore2.Errors
