import Freelan.Digits
import Freelan.Address
import Freelan.Decimal
import Freelan.NetworkAddress
import Freelan.InetV4
import Freelan.InetV6
import Freelan.InetV6RoundTrip
import Freelan.Families
import Freelan.Stream
import Freelan.NetworkAddressIo
import Freelan.IpNetworkAddress
import Freelan.Json
import Freelan.Client
import Freelan.ClientRequest
