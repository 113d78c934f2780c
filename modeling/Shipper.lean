import Shipper.Catalog
import Shipper.Run
import Shipper.Memo
import Shipper.Mutex
import Shipper.Agreement
import Shipper.Progress
import Shipper.History
import Shipper.Fairness
import Shipper.Names
